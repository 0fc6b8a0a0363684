import NestTemplate.Auth.BrowserFlow

/-!
# What the client gets back

The client asked with a redirect URL and a state; it should get its own URL
back with the code of the challenge row and the state it sent.

* `loginGranted_form`: which login forms the guard lets through.
* `client_answered_iff`: the client gets its answer iff it sent an empty state
  and nothing on the way stops the flow.
* `state_not_returned`: a request with a state gets none back.
-/

namespace NestTemplate

open Common

/-! ## The last form -/

section

variable {app : App} {st : Store} {authorization : Json} {email password : String}

/-- The login form as the guard sees it. -/
def loginForm (app : App) (authorization : Json) (email password : String) : Json :=
  formBody [("token", app.encrypt authorization.stringify), ("email", email),
    ("password", password)]

/-- The payload that the guard makes of it. -/
def loginPayload (authorization : Json) (email password : String) : Json :=
  .obj [("email", .str email), ("password", .str password), ("token", authorization)]

theorem withToken_loginForm : AuthorizationLoginStrategy.withToken
    (loginForm app authorization email password) authorization =
      loginPayload authorization email password := by
  simp [loginForm, formBody, AuthorizationLoginStrategy.withToken, Json.setMember, loginPayload]

theorem get?_loginPayload_token :
    (loginPayload authorization email password).get? "token" = some authorization := rfl

theorem get?_loginPayload_email :
    (loginPayload authorization email password).get? "email" = some (.str email) := rfl

theorem get?_loginPayload_password :
    (loginPayload authorization email password).get? "password" = some (.str password) := rfl

/-- The guard lets a login form with a token of the application through for whom the credentials
    are right, if the authorization request is still valid. -/
theorem loginGranted_form {ms : List (String × Json)} {user : UserModel} {content : Json}
    (hj : (Json.obj ms).noNumber = true) :
    (∃ token payload, LoginGranted app (some (loginForm app (.obj ms) email password)) st token
        payload user content) ↔
      (∀ p ∈ AuthorizationDto.properties app st, p.Holds (.obj ms)) ∧
        (app.isEmail email = true ∧ email ≠ "") ∧ password ≠ "" ∧
          AuthService.validateForPassword app email password st = some user ∧
            content = .obj ms := by
  have hdecrypt : AuthorizationLoginStrategy.decryptToken app
      (loginForm app (.obj ms) email password) = .ok (.obj ms) :=
    AuthorizationLoginStrategy.decryptToken_encrypt hj rfl
  have hcontent : AuthorizationLoginStrategy.validateContent app
      (loginPayload (.obj ms) email password) st = .ok (loginPayload (.obj ms) email password) ↔
        (∀ p ∈ AuthorizationDto.properties app st, p.Holds (.obj ms)) ∧
          (app.isEmail email = true ∧ email ≠ "") ∧ password ≠ "" := by
    refine validate_eq_ok.trans ?_
    have hnotEmpty : Constraint.isNotEmpty.check (loginPayload (.obj ms) email password)
      (some (.obj ms)) = .ok true := rfl
    rw [← @nestedErrors_obj "token"]
    simp only [LoginDto.properties, List.forall_mem_cons, List.not_mem_nil, false_implies,
      implies_true, and_true, Property.Holds, forall_const, get?_loginPayload_token,
      get?_loginPayload_email, get?_loginPayload_password, Constraint.isNotEmpty_check,
      Constraint.isString_check, Constraint.isEmail_check, hnotEmpty, Option.elim_some]
    simp [loginPayload]
  constructor
  · rintro ⟨token, payload, hdecrypted, hvalid, huser, rfl⟩
    rw [show AuthorizationLoginStrategy.bodyOrEmpty (some (loginForm app (.obj ms) email password)) =
      loginForm app (.obj ms) email password from rfl] at hdecrypted hvalid
    cases hdecrypt.symm.trans hdecrypted
    obtain ⟨hpayload, -, -⟩ := validate_eq_ok.mp hvalid
    rw [withToken_loginForm, Option.some.injEq] at hpayload
    subst hpayload
    rw [withToken_loginForm] at hvalid
    obtain ⟨hholds, hemail, hpassword⟩ := hcontent.mp hvalid
    exact ⟨hholds, hemail, hpassword, huser, rfl⟩
  · rintro ⟨hholds, hemail, hpassword, huser, rfl⟩
    refine ⟨.obj ms, loginPayload (.obj ms) email password, hdecrypt, ?_, huser, rfl⟩
    exact (congrArg (AuthorizationLoginStrategy.validateContent app · st) withToken_loginForm).trans
      (hcontent.mpr ⟨hholds, hemail, hpassword⟩)

end

/-! ## The answer -/

/-- `location` is the URL `own` with the code and the state behind its own parameters. -/
def ReturnsTo (own : Url) (code : Uuid) (state location : String) : Prop :=
  ∃ target : Url, location = target.toString ∧ target.front = own.front ∧
    target.fragment = own.fragment ∧
      target.searchParams = own.searchParams ++ [("code", code.toString), ("state", state)]

/-- The flow created a code for `user` and what the client asked for, and ended in a redirect to the
    client with this code and the state of its request. -/
def ClientAnswered (app : App) (env : Env) (user : UserModel) (authorization : Json) (st : Store)
    (result : Except Failure String × Server) : Prop :=
  ∃ row own location state,
    ((∃ g, Minted env user authorization g row) ∧ st.insertChallenge row = .ok result.2.1) ∧
      Url.parse app.urlFront (text authorization "redirect_url") = some own ∧
        authorization.get? "state" = some (.str state) ∧ result.1 = .ok location ∧
          ReturnsTo own row.id state location

/-- Nothing stops the flow on its way. -/
structure Carried (app : App) (browser : Browser) (env : Env) (senv : SessionEnv) (st : Store)
    (authorization : Json) (email password : String) : Prop where
  /-- The e-mail passes the validation of the forms, and the page of password.twig carries it. -/
  email : app.isEmail email = true ∧ email ≠ "" ∧ browser.attributeValue email = email
  password : password ≠ ""
  /-- The redirect URL fits in the header of that page, and `new URL` reads it. -/
  redirect_url : isHeaderText (text authorization "redirect_url").toList = true ∧
    (Url.parse app.urlFront (text authorization "redirect_url")).isSome = true
  /-- The client is still registered for the grant type when the user logs in. -/
  valid : ∀ p ∈ AuthorizationDto.properties app st, p.Holds authorization
  /-- The challenge row goes in. -/
  works : env.fails .insertChallenge = false
  fresh : ∀ c ∈ st.challenges, c.id ≠ env.uuid
  challenge : ∀ g : GrantTypes, authorization.get? "grant_type" = some (.str g.text) →
    Store.isText (challengeOf g authorization).1 = true
  /-- The session store works. -/
  sessions : senv.destroyError = none ∧ senv.saveError = none

/-- Only the state that was appended is returned. -/
theorem returnsTo_append {own : Url} {code : Uuid} {s state : String} :
    ReturnsTo own code state ((own.append "code" code.toString).append "state" s).toString ↔
      s = state := by
  have hparams : ((own.append "code" code.toString).append "state" s).searchParams =
      own.searchParams ++ [("code", code.toString), ("state", s)] := by
    rw [Url.searchParams_append, Url.searchParams_append, List.append_assoc]
    rfl
  constructor
  · rintro ⟨target, htarget, -, -, hsearch⟩
    rw [← Url.toString_injective htarget, hparams] at hsearch
    simpa using hsearch
  · rintro rfl
    exact ⟨_, rfl, rfl, rfl, hparams⟩

/-- Two rows that lead to one store are one row. -/
theorem Store.insertChallenge_row {st st' : Store} {row row' : AuthorizationChallengeModel}
    (h : st.insertChallenge row = .ok st') (h' : st.insertChallenge row' = .ok st') :
    row = row' := by
  obtain ⟨hrows, -⟩ := insertChallenge_eq_ok h
  obtain ⟨hrows', -⟩ := insertChallenge_eq_ok h'
  obtain ⟨hfresh, -⟩ := insertChallenge_isOk.mp ⟨st', h⟩
  rcases (hrows' row).mp ((hrows row).mpr (.inl rfl)) with heq | hmem
  · exact heq
  · exact absurd rfl (hfresh row hmem)

section

variable {app : App} {browser : Browser} {env : Env} {senv : SessionEnv} {st₀ : Store}
  {query : Query} {passwordId : Uuid} {cookie email password token : String} {user : UserModel}
  {s : Server} {location : String} {st' : Store}

/-- What `showLogin` accepts has a redirect URL. -/
theorem AuthorizationController.redirect_url_of_showLogin
    (hshow : showLogin app st₀ query = .ok token) :
    (AuthorizationDto.ofQuery query).get? "redirect_url" =
      some (.str (text (AuthorizationDto.ofQuery query) "redirect_url")) := by
  obtain ⟨hholds, -⟩ := showLogin_eq_ok.mp hshow
  obtain ⟨url, hurl, -⟩ := (AuthorizationDto.valid_of_holds hholds).redirect_url
  rw [hurl, text_of_get? hurl]

/-- The flow ends in a redirect for the user whose credentials were typed in or, where the page
    carries another e-mail, for somebody else; without the state. -/
theorem browserFlow_redirects (hshow : AuthorizationController.showLogin app st₀ query = .ok token) :
    (∃ w', browserFlow app browser env senv passwordId cookie token email password s =
        (.ok location, (st', w'))) ↔
      ((app.isEmail email = true ∧ email ≠ "") ∧
        isHeaderText (text (AuthorizationDto.ofQuery query) "redirect_url").toList = true) ∧
      (senv.destroyError = none ∧ senv.saveError = none) ∧
      (∀ p ∈ AuthorizationDto.properties app s.1, p.Holds (AuthorizationDto.ofQuery query)) ∧
      (app.isEmail (browser.attributeValue email) = true ∧ browser.attributeValue email ≠ "") ∧
      password ≠ "" ∧
      ∃ user row own, AuthService.validateForPassword app (browser.attributeValue email) password
          s.1 = some user ∧
        ((∃ g, Minted env user (AuthorizationDto.ofQuery query) g row) ∧
          env.fails .insertChallenge = false ∧ s.1.insertChallenge row = .ok st') ∧
        Url.parse app.urlFront (text (AuthorizationDto.ofQuery query) "redirect_url") = some own ∧
        location = ((own.append "code" row.id.toString).append "state" "").toString := by
  obtain ⟨-, rfl⟩ := AuthorizationController.showLogin_eq_ok.mp hshow
  have hj := AuthorizationDto.ofQuery_noNumber query
  rw [browserFlow_eq_ok hj (AuthorizationController.redirect_url_of_showLogin hshow)]
  refine and_congr_right fun _ => and_congr_right fun _ => ?_
  simp only [postLogin_eq_ok, AuthorizationRedirector.generateUrl_eq_ok]
  constructor
  · rintro ⟨row, user, content, ⟨hgranted, hm, hf, hi⟩, own, hown, rfl⟩
    obtain ⟨hholds, hemail, hpassword, huser, rfl⟩ := (loginGranted_form hj).mp hgranted
    exact ⟨hholds, hemail, hpassword, user, row, own, huser, ⟨hm, hf, hi⟩, hown, rfl⟩
  · rintro ⟨hholds, hemail, hpassword, user, row, own, huser, ⟨hm, hf, hi⟩, hown, rfl⟩
    exact ⟨row, user, _, ⟨(loginGranted_form hj).mpr ⟨hholds, hemail, hpassword, huser, rfl⟩,
      hm, hf, hi⟩, own, hown, rfl⟩

/-- A valid authorization request of the client has a row to create for every user. -/
theorem Carried.minted {authorization : Json}
    (h : Carried app browser env senv s.1 authorization email password) (hu : user ∈ s.1.users) :
    ∃ row, (∃ g, Minted env user authorization g row) ∧
      ∃ st', s.1.insertChallenge row = .ok st' := by
  obtain ⟨⟨g, hg, hgt⟩, ⟨t, ht, -, c, hc, hid, -⟩, -⟩ := AuthorizationDto.valid_of_holds h.valid
  rw [← text_of_get? ht] at hid
  refine ⟨{ id := env.uuid, user_id := user.id, client_id := c.id
            challenge := (challengeOf g authorization).1
            algorithm := (challengeOf g authorization).2 },
    ⟨g, hgt, hg, rfl, rfl, hid, rfl, rfl⟩, Store.insertChallenge_isOk.mpr ?_⟩
  exact ⟨h.fresh, h.challenge g hgt, ⟨user, hu, rfl⟩, c, hc, rfl⟩

/-- Where nothing stops it, the flow ends in a redirect with an empty state. -/
theorem Carried.redirects {own : Url}
    (hshow : AuthorizationController.showLogin app st₀ query = .ok token)
    (h : Carried app browser env senv s.1 (AuthorizationDto.ofQuery query) email password)
    (huser : AuthService.validateForPassword app email password s.1 = some user)
    (hown : Url.parse app.urlFront (text (AuthorizationDto.ofQuery query) "redirect_url") =
      some own) :
    ∃ row st' w', ((∃ g, Minted env user (AuthorizationDto.ofQuery query) g row) ∧
        s.1.insertChallenge row = .ok st') ∧
      browserFlow app browser env senv passwordId cookie token email password s =
        (.ok ((own.append "code" row.id.toString).append "state" "").toString, (st', w')) := by
  obtain ⟨row, hm, st', hi⟩ := h.minted (AuthService.mem_of_validateForPassword huser)
  obtain ⟨hemail, hne, hcarried⟩ := h.email
  obtain ⟨w', hflow⟩ := (browserFlow_redirects (s := s) hshow).mpr
    ⟨⟨⟨hemail, hne⟩, h.redirect_url.1⟩, h.sessions, h.valid, hcarried.symm ▸ ⟨hemail, hne⟩,
      h.password, user, row, own, hcarried.symm ▸ huser, ⟨hm, h.works, hi⟩, hown, rfl⟩
  exact ⟨row, st', w', ⟨hm, hi⟩, hflow⟩

/-- An answered client sent an empty state, and the flow was not stopped. -/
theorem carried_of_clientAnswered {state : String}
    (hshow : AuthorizationController.showLogin app st₀ query = .ok token)
    (hstate : (AuthorizationDto.ofQuery query).get? "state" = some (.str state))
    (huser : AuthService.validateForPassword app email password s.1 = some user)
    (h : ClientAnswered app env user (AuthorizationDto.ofQuery query) s.1
      (browserFlow app browser env senv passwordId cookie token email password s)) :
    state = "" ∧
      Carried app browser env senv s.1 (AuthorizationDto.ofQuery query) email password := by
  obtain ⟨row, own, location, _, ⟨⟨g, hm⟩, hi⟩, hown, hstate', hlocation, hreturns⟩ := h
  cases hstate.symm.trans hstate'
  rcases hflow : browserFlow app browser env senv passwordId cookie token email password s with
    ⟨r, st', w'⟩
  rw [hflow] at hlocation hi
  subst hlocation
  obtain ⟨⟨hemail, hheader⟩, hworks, hholds, -, hpassword, user', row', own', huser',
    ⟨⟨g', hm'⟩, hf, hi'⟩, hown', rfl⟩ := (browserFlow_redirects hshow).mp ⟨w', hflow⟩
  cases hown.symm.trans hown'
  obtain rfl := Store.insertChallenge_row hi hi'
  -- the row is of the user found by the e-mail that the page carried
  obtain rfl : user = user' := Table.eq_of_key_eq (AuthService.mem_of_validateForPassword huser)
    (AuthService.mem_of_validateForPassword huser') (hm.user_id.symm.trans hm'.user_id)
  have hcarried : browser.attributeValue email = email :=
    (AuthService.email_of_validateForPassword huser').symm.trans
      (AuthService.email_of_validateForPassword huser)
  obtain ⟨hfresh, htext, -⟩ := Store.insertChallenge_isOk.mp ⟨st', hi⟩
  refine ⟨(returnsTo_append.mp hreturns).symm, ⟨hemail.1, hemail.2, hcarried⟩, hpassword,
    ⟨hheader, by rw [hown]; rfl⟩, hholds, hf, hm.id ▸ hfresh, fun g₀ hg₀ => ?_, hworks⟩
  have heq : g₀ = g := by
    have := hg₀.symm.trans hm.grant_type
    exact GrantTypes.text_injective (by simpa using this)
  rw [heq, ← hm.challenge]
  exact htext

/-- **Main theorem**: the flow gives the client what it asked for iff it asked for an empty state and
    nothing on the way stops the flow. -/
theorem client_answered_iff {state : String}
    (hshow : AuthorizationController.showLogin app st₀ query = .ok token)
    (hstate : (AuthorizationDto.ofQuery query).get? "state" = some (.str state))
    (huser : AuthService.validateForPassword app email password s.1 = some user) :
    ClientAnswered app env user (AuthorizationDto.ofQuery query) s.1
        (browserFlow app browser env senv passwordId cookie token email password s) ↔
      state = "" ∧
        Carried app browser env senv s.1 (AuthorizationDto.ofQuery query) email password := by
  refine ⟨carried_of_clientAnswered hshow hstate huser, ?_⟩
  rintro ⟨rfl, hcarried⟩
  obtain ⟨own, hown⟩ := Option.isSome_iff_exists.mp hcarried.redirect_url.2
  obtain ⟨row, st', w', hm, hflow⟩ := hcarried.redirects hshow huser hown
  rw [hflow]
  exact ⟨row, own, _, "", hm, hown, hstate, rfl, returnsTo_append.mpr rfl⟩

end

namespace Sample

/-- A browser that is only given plain texts. -/
def browser : Browser where
  characterReferences := id
  plain _ _ := rfl

/-- The authorization request of the PKCE client `1`, with a parameter of its own. -/
def query (state : String) : Query :=
  [("grant_type", "pkce"), ("client_id", (uuid 1).toString),
    ("code_challenge", "E9Melhoa2OwvFrEMTJguCHaoeK1t8URWbuGJSstw-cM"), ("algorithm", "sha256"),
    ("redirect_url", "https://client.example/cb?tenant=7"), ("state", state)]

/-- The token of the login page. -/
def token (state : String) : String :=
  app.encrypt (AuthorizationDto.ofQuery (query state)).stringify

/-- The redirect URL of `query`. -/
def clientUrl : Url where
  front := redirectFront
  query := some "tenant=7".toList
  fragment := none
  noFragment := by rintro q ⟨⟩; decide

section

variable {state : String} (h : state = "" ∨ state = "xyz")

include h

theorem query_holds : ∀ p ∈ AuthorizationDto.properties app (clientStore .PKCE),
    p.Holds (AuthorizationDto.ofQuery (query state)) := by
  refine ValidationPipe.holds_of_toOption ?_
  rcases h with rfl | rfl <;> decide

theorem showLogin_query :
    AuthorizationController.showLogin app (clientStore .PKCE) (query state) = .ok (token state) :=
  AuthorizationController.showLogin_eq_ok.mpr ⟨query_holds h, rfl⟩

theorem parse_redirect_url :
    Url.parse app.urlFront (text (AuthorizationDto.ofQuery (query state)) "redirect_url") =
      some clientUrl := by
  rcases h with rfl | rfl <;> decide

theorem carried_query : Carried app browser (env 0 2) sessionEnv (clientStore .PKCE)
    (AuthorizationDto.ofQuery (query state)) "a@example.com" "abc123xyz" where
  email := ⟨by decide, by decide, by decide⟩
  password := by decide
  redirect_url := ⟨by rcases h with rfl | rfl <;> decide, by rw [parse_redirect_url h]; rfl⟩
  valid := query_holds h
  works := rfl
  fresh := by decide
  challenge g _ := by cases g <;> rcases h with rfl | rfl <;> decide
  sessions := ⟨rfl, rfl⟩

end

theorem validateForPassword_user : AuthService.validateForPassword app "a@example.com" "abc123xyz"
    (clientStore .PKCE) = some user := by
  decide

/-- The flow of `query state` for the user's credentials. -/
def queryFlow (state : String) : Except Failure String × Server :=
  browserFlow app browser (env 0 2) sessionEnv (uuid 9) "before" (token state) "a@example.com"
    "abc123xyz" (clientStore .PKCE, sessions)

end Sample

theorem client_answered_iff_sample :
    ClientAnswered Sample.app (Sample.env 0 2) Sample.user
      (AuthorizationDto.ofQuery (Sample.query "")) (Sample.clientStore .PKCE)
      (Sample.queryFlow "") :=
  (client_answered_iff (s := (Sample.clientStore .PKCE, Sample.sessions))
    (Sample.showLogin_query (.inl rfl)) rfl Sample.validateForPassword_user).mpr
      ⟨rfl, Sample.carried_query (.inl rfl)⟩

/-- The client sent the state `xyz` and gets an empty one. -/
theorem state_not_returned :
    AuthorizationController.showLogin Sample.app (Sample.clientStore .PKCE) (Sample.query "xyz") =
        .ok (Sample.token "xyz") ∧
      AuthService.validateForPassword Sample.app "a@example.com" "abc123xyz"
        (Sample.clientStore .PKCE) = some Sample.user ∧
      (Sample.queryFlow "xyz").1 = .ok ("https://client.example/cb?tenant=7" ++
        "&code=22222222-2222-4222-8222-222222222222&state=") ∧
      ¬ ClientAnswered Sample.app (Sample.env 0 2) Sample.user
        (AuthorizationDto.ofQuery (Sample.query "xyz")) (Sample.clientStore .PKCE)
        (Sample.queryFlow "xyz") := by
  have hshow := Sample.showLogin_query (.inr rfl)
  have huser := Sample.validateForPassword_user
  refine ⟨hshow, huser, ?_, fun h => ?_⟩
  · obtain ⟨row, st', w', ⟨⟨g, hm⟩, -⟩, hflow⟩ := (Sample.carried_query (.inr rfl)).redirects
      (s := (Sample.clientStore .PKCE, Sample.sessions)) hshow huser
      (Sample.parse_redirect_url (.inr rfl))
    rw [Sample.queryFlow, hflow, hm.id]
    exact congrArg Except.ok (by decide)
  · obtain ⟨hempty, -⟩ := carried_of_clientAnswered
      (s := (Sample.clientStore .PKCE, Sample.sessions)) hshow rfl huser h
    exact absurd hempty (by decide)

end NestTemplate
