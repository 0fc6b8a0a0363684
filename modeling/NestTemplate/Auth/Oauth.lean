import NestTemplate.Auth.Repos

/-!
# `POST /oauth/token` and `POST /oauth/refresh`

The guard (a passport strategy and `handleRequest`) runs before the
transaction of the handler, so what the guard wrote stays when the handler
fails.

* `Granted`: what the strategy of `/oauth/token` accepts, one constructor for
  each grant type; `AccessTokenService.validate_eq_ok` says it is all of it.
* `RefreshTokenService.validate_eq_ok`: what the strategy of `/oauth/refresh`
  accepts.
* `postToken_eq_ok`, `postRefresh_eq_ok`: every successful request, with the
  rows it adds and removes.
-/

namespace NestTemplate

open Common

/-- What the guards read of a request. -/
structure Request where
  accept : Option String
  body : Option Json

/-- `request.headers.accept?.toLowerCase().includes('application/json')`. -/
def Request.acceptsJson (req : Request) : Bool :=
  match req.accept with
  | some accept => "application/json".toList <:+: accept.toList.map Char.toLower
  | none => false

/-- The single `ValidationError` the guards and strategies throw for credentials. -/
def credentialsError (property message : String) : Failure :=
  .unprocessable [⟨property, [("credentials", message)], []⟩]

/-- `handleRequest` of a guard, around the strategy of the guard. -/
def handleRequest {α : Type} (strategy : Db α) : Db α := fun st =>
  match strategy st with
  | (.error .unauthorized, t) => (.error (credentialsError "credentials" "Credentials are invalid"), t)
  | r => r

theorem handleRequest_eq_ok {α : Type} {x : Db α} {st st' : Store} {a : α} :
    handleRequest x st = (.ok a, st') ↔ x st = (.ok a, st') := by
  unfold handleRequest
  split
  · rename_i h; simp [h]
  · rfl

theorem Keeps.handleRequest {α : Type} {R : Store → Store → Prop} {x : Db α}
    (hx : Action.Keeps R x) : Action.Keeps R (handleRequest x) := by
  intro st
  have h := hx st
  unfold NestTemplate.handleRequest
  split
  · rename_i hs; rwa [hs] at h
  · exact h

/-! ## The grant types -/

namespace ImplicitPasswordGrantType

def validate (app : App) (payload : Json) : Db (UserModel × ClientModel) := do
  let client ← Db.query
    (ClientRepoService.findForIdAndSecret (text payload "client_id") (text payload "client_secret"))
  match client with
  | none => Action.fail (credentialsError "credentials" "Client credentials are invalid")
  | some client =>
    let user ← Action.read
      (AuthService.validateForPassword app (text payload "email") (text payload "password"))
    match user with
    | none => Action.fail .unauthorized
    | some user => return (user, client)

end ImplicitPasswordGrantType

namespace ProofKeyExchangeGrantType

def validate (app : App) (env : Env) (payload : Json) : Db (UserModel × ClientModel) := do
  let result ← AuthorizationChallengeRepoService.verifyChallenge app env
    (text payload "code") (text payload "code_verifier")
  match result with
  | none => Action.fail (credentialsError "code_verifier" "Code verifier mismatch")
  | some result => return (result.user, result.client)

end ProofKeyExchangeGrantType

namespace AuthorizationCodeGrantType

def validate (env : Env) (payload : Json) : Db (UserModel × ClientModel) := do
  let result ← AuthorizationChallengeRepoService.verifyWithClientId env
    (text payload "code") (text payload "client_id")
  match result with
  | none => Action.fail (credentialsError "credentials" "Client credentials are invalid")
  | some result => return (result.user, result.client)

end AuthorizationCodeGrantType

/-- What a grant type accepts: for whom, and which store it leaves. -/
inductive Granted (app : App) (env : Env) (payload : Json) (st : Store) :
    GrantTypes → UserModel → ClientModel → Store → Prop
  | password {user : UserModel} {client : ClientModel}
      (hclient : ClientRepoService.findForIdAndSecret (text payload "client_id")
        (text payload "client_secret") st = .ok (some client))
      (huser : AuthService.validateForPassword app (text payload "email")
        (text payload "password") st = some user) :
      Granted app env payload st .ImplicitPassword user client st
  | pkce {record : ChallengeRecord}
      (hcode : AuthorizationChallengeRepoService.findByPk (text payload "code") st = .ok record)
      (hworks : env.fails .destroyChallenge = false)
      (hverifier : AuthorizationChallengeRepoService.compareChallengeAndVerifier app
        record.row.challenge (text payload "code_verifier") record.row.algorithm = .ok true) :
      Granted app env payload st .PKCE record.user record.client (st.deleteChallenge record.row.id)
  | code {record : ChallengeRecord}
      (hcode : AuthorizationChallengeRepoService.findByPk (text payload "code") st = .ok record)
      (hworks : env.fails .destroyChallenge = false)
      (hclient : record.client.id.toString = text payload "client_id") :
      Granted app env payload st .AuthorizationCode record.user record.client
        (st.deleteChallenge record.row.id)

section

variable {app : App} {env : Env} {payload : Json} {st st' : Store} {user : UserModel}
  {client : ClientModel}

theorem ImplicitPasswordGrantType.validate_eq_ok :
    ImplicitPasswordGrantType.validate app payload st = (.ok (user, client), st') ↔
      Granted app env payload st .ImplicitPassword user client st' := by
  unfold ImplicitPasswordGrantType.validate
  rw [Db.query_bind_eq_ok]
  constructor
  · rintro ⟨_ | c, hclient, h⟩
    · simp at h
    · rw [Action.read_bind_eq_ok] at h
      cases huser : AuthService.validateForPassword app (text payload "email")
          (text payload "password") st with
      | none => simp [huser] at h
      | some u =>
        obtain ⟨⟨rfl, rfl⟩, rfl⟩ : (u = user ∧ c = client) ∧ st = st' := by simpa [huser] using h
        exact .password hclient huser
  · rintro ⟨hclient, huser⟩
    refine ⟨some client, hclient, ?_⟩
    rw [Action.read_bind_eq_ok, huser]
    rfl

theorem ProofKeyExchangeGrantType.validate_eq_ok :
    ProofKeyExchangeGrantType.validate app env payload st = (.ok (user, client), st') ↔
      Granted app env payload st .PKCE user client st' := by
  unfold ProofKeyExchangeGrantType.validate
  rw [Action.bind_eq_ok]
  constructor
  · rintro ⟨result, m, hverify, h⟩
    cases result with
    | none => simp at h
    | some record =>
      obtain ⟨⟨rfl, rfl⟩, rfl⟩ : (record.user = user ∧ record.client = client) ∧ m = st' := by
        simpa using h
      obtain ⟨hconsume, hverifier⟩ :=
        AuthorizationChallengeRepoService.verifyChallenge_eq_ok.mp hverify
      obtain ⟨hcode, hworks, rfl⟩ :=
        AuthorizationChallengeRepoService.consumeCode_eq_ok.mp hconsume
      exact .pkce hcode hworks hverifier
  · intro h
    cases h with
    | @pkce record hcode hworks hverifier =>
      refine ⟨some record, _, ?_, rfl⟩
      exact AuthorizationChallengeRepoService.verifyChallenge_eq_ok.mpr
        ⟨AuthorizationChallengeRepoService.consumeCode_eq_ok.mpr ⟨hcode, hworks, rfl⟩, hverifier⟩

theorem AuthorizationCodeGrantType.validate_eq_ok :
    AuthorizationCodeGrantType.validate env payload st = (.ok (user, client), st') ↔
      Granted app env payload st .AuthorizationCode user client st' := by
  unfold AuthorizationCodeGrantType.validate
  rw [Action.bind_eq_ok]
  constructor
  · rintro ⟨result, m, hverify, h⟩
    cases result with
    | none => simp at h
    | some record =>
      obtain ⟨⟨rfl, rfl⟩, rfl⟩ : (record.user = user ∧ record.client = client) ∧ m = st' := by
        simpa using h
      obtain ⟨hconsume, hclient⟩ :=
        AuthorizationChallengeRepoService.verifyWithClientId_eq_ok.mp hverify
      obtain ⟨hcode, hworks, rfl⟩ :=
        AuthorizationChallengeRepoService.consumeCode_eq_ok.mp hconsume
      exact .code hcode hworks hclient
  · intro h
    cases h with
    | @code record hcode hworks hclient =>
      refine ⟨some record, _, ?_, rfl⟩
      exact AuthorizationChallengeRepoService.verifyWithClientId_eq_ok.mpr
        ⟨AuthorizationChallengeRepoService.consumeCode_eq_ok.mpr ⟨hcode, hworks, rfl⟩, hclient⟩

end

/-! ## The strategies -/

namespace AccessTokenService

/-- `GrantTypeMappings[payload.grant_type]`, resolved and called. -/
def grantTypeMappings (app : App) (env : Env) (payload : Json) :
    GrantTypes → Db (UserModel × ClientModel)
  | .ImplicitPassword => ImplicitPasswordGrantType.validate app payload
  | .PKCE => ProofKeyExchangeGrantType.validate app env payload
  | .AuthorizationCode => AuthorizationCodeGrantType.validate env payload

def validateContent (app : App) (body : Option Json) : Except Failure Json :=
  NestTemplate.validate (AccessTokenDto.properties app) body

def validate (app : App) (env : Env) (req : Request) : Db (UserModel × ClientModel) := do
  Action.guard req.acceptsJson (.notFound none)
  let payload ← Action.lift (validateContent app req.body)
  match GrantTypes.ofText? (text payload "grant_type") with
  | some grantType => grantTypeMappings app env payload grantType
  | none =>
    Action.fail (.error ("Grant Type " ++ text payload "grant_type" ++ " not implemented"))

theorem validate_eq_ok {app : App} {env : Env} {req : Request} {st st' : Store}
    {user : UserModel} {client : ClientModel} :
    validate app env req st = (.ok (user, client), st') ↔
      req.acceptsJson = true ∧ ∃ payload grantType, validateContent app req.body = .ok payload ∧
        GrantTypes.ofText? (text payload "grant_type") = some grantType ∧
          Granted app env payload st grantType user client st' := by
  have mappings : ∀ payload grantType, grantTypeMappings app env payload grantType st =
      (.ok (user, client), st') ↔ Granted app env payload st grantType user client st' := by
    intro payload grantType
    cases grantType with
    | ImplicitPassword => exact ImplicitPasswordGrantType.validate_eq_ok
    | PKCE => exact ProofKeyExchangeGrantType.validate_eq_ok
    | AuthorizationCode => exact AuthorizationCodeGrantType.validate_eq_ok
  unfold validate
  rw [Action.guard_bind_eq_ok, Action.lift_bind_eq_ok]
  refine and_congr_right fun _ => exists_congr fun payload => ?_
  cases hg : GrantTypes.ofText? (text payload "grant_type") with
  | none => simp
  | some grantType => simp [mappings payload grantType]

end AccessTokenService

namespace RefreshTokenService

def validateContent (app : App) (body : Option Json) : Except Failure Json :=
  NestTemplate.validate (RefreshTokenDto.properties app) body

def validate (app : App) (env : Env) (req : Request) : Db RefreshTokenModel := do
  Action.guard req.acceptsJson (.notFound none)
  let payload ← Action.lift (validateContent app req.body)
  let client ← Db.query
    (ClientRepoService.findForIdAndSecret (text payload "client_id") (text payload "client_secret"))
  Action.guard client.isSome (credentialsError "credentials" "Client credentials are invalid")
  let refreshToken ← Db.query (AuthService.findRefreshToken app (text payload "refresh_token"))
  match refreshToken with
  | none => Action.fail .unauthorized
  | some refreshToken =>
    -- `moment().isAfter(refreshToken.expires_at)`
    Action.guard (∀ t ∈ refreshToken.expires_at, env.now ≤ t) .unauthorized
    return refreshToken

theorem validate_eq_ok {app : App} {env : Env} {req : Request} {st st' : Store}
    {refreshToken : RefreshTokenModel} :
    validate app env req st = (.ok refreshToken, st') ↔
      req.acceptsJson = true ∧ ∃ payload client, validateContent app req.body = .ok payload ∧
        ClientRepoService.findForIdAndSecret (text payload "client_id")
          (text payload "client_secret") st = .ok (some client) ∧
        refreshToken ∈ st.refreshTokens ∧
          app.verifyAsync (text payload "refresh_token") = some refreshToken.id ∧
            (∀ t ∈ refreshToken.expires_at, env.now ≤ t) ∧ st' = st := by
  unfold validate
  simp only [Action.guard_bind_eq_ok, Action.lift_bind_eq_ok, Db.query_bind_eq_ok]
  refine and_congr_right fun _ => exists_congr fun payload => ?_
  constructor
  · rintro ⟨hpayload, result, hclient, hsome, found, hfind, h⟩
    obtain ⟨client, rfl⟩ := Option.isSome_iff_exists.mp hsome
    cases found with
    | none => simp at h
    | some r =>
      obtain ⟨hfresh, h⟩ := Action.guard_bind_eq_ok.mp h
      obtain ⟨rfl, rfl⟩ : r = refreshToken ∧ st = st' := by simpa using h
      obtain ⟨hr, hverify⟩ := AuthService.findRefreshToken_eq_some.mp hfind
      exact ⟨client, hpayload, hclient, hr, hverify, of_decide_eq_true hfresh, rfl⟩
  · rintro ⟨client, hpayload, hclient, hr, hverify, hfresh, rfl⟩
    refine ⟨hpayload, some client, hclient, rfl, some refreshToken, ?_, ?_⟩
    · exact AuthService.findRefreshToken_eq_some.mpr ⟨hr, hverify⟩
    · exact Action.guard_bind_eq_ok.mpr ⟨decide_eq_true hfresh, rfl⟩

end RefreshTokenService

/-! ## `OauthController` -/

structure BearerTokenResult where
  expires_at : Option ℕ
  access_token : String
  refresh_token : String
  type : String

namespace OauthController

/-- The shared body of the two methods below: no date without a lifetime. -/
def expiration (expirationTime : Option ℕ) (now : ℕ) : Option ℕ :=
  match expirationTime with
  | none | some 0 => none
  | some ms => some (now + ms)

def accessTokenExpiration (app : App) (env : Env) : Option ℕ :=
  expiration app.expirationTimeAccessToken env.now

def refreshTokenExpiration (app : App) (env : Env) : Option ℕ :=
  expiration app.expirationTimeRefreshToken env.now

/-- The response both handlers end with. -/
def response (app : App) (env : Env) (accessToken : AccessTokenModel)
    (refreshToken : RefreshTokenModel) : Db BearerTokenResult := do
  let access_token ← AccessTokenRepoService.createBearerToken app env accessToken
  let refresh_token ← RefreshTokenRepoService.createBearerToken app env refreshToken
  return { type := "Bearer", access_token, refresh_token,
           expires_at := accessTokenExpiration app env }

def token (app : App) (env : Env) (user : UserModel × ClientModel) : Db BearerTokenResult := do
  let accessToken ← AccessTokenRepoService.create env user.2 (some user.1)
    (accessTokenExpiration app env)
  let refreshToken ← RefreshTokenRepoService.create env accessToken
    (refreshTokenExpiration app env)
  response app env accessToken refreshToken

def refreshAccessToken (app : App) (env : Env) (currentRefreshToken : RefreshTokenModel) :
    Db BearerTokenResult := do
  let (refreshToken, accessToken) ← RefreshTokenRepoService.consumeToken env currentRefreshToken
    (refreshTokenExpiration app env) (accessTokenExpiration app env)
  response app env accessToken refreshToken

/-- The response that carries a pair of tokens. -/
def bearer (app : App) (env : Env) (accessToken : AccessTokenModel)
    (refreshToken : RefreshTokenModel) : BearerTokenResult where
  expires_at := accessTokenExpiration app env
  access_token := app.signAsync accessToken.id
  refresh_token := app.signAsync refreshToken.id
  type := "Bearer"

theorem response_eq_ok {app : App} {env : Env} {a : AccessTokenModel} {r : RefreshTokenModel}
    {st st' : Store} {res : BearerTokenResult} :
    response app env a r st = (.ok res, st') ↔
      env.fails .signAccessToken = false ∧ env.fails .signRefreshToken = false ∧
        res = bearer app env a r ∧ st' = st := by
  unfold response AccessTokenRepoService.createBearerToken RefreshTokenRepoService.createBearerToken
  simp only [Action.bind_eq_ok, Db.sign_eq_ok, Action.pure_run, Prod.mk.injEq, Except.ok.injEq]
  constructor
  · rintro ⟨_, m, ⟨hf, rfl, rfl⟩, _, _, ⟨hf', rfl, rfl⟩, rfl, rfl⟩
    exact ⟨hf, hf', rfl, rfl⟩
  · rintro ⟨hf, hf', rfl, rfl⟩
    exact ⟨_, st', ⟨hf, rfl, rfl⟩, _, st', ⟨hf', rfl, rfl⟩, rfl, rfl⟩

theorem token_eq_ok {app : App} {env : Env} {user : UserModel} {client : ClientModel}
    {st st' : Store} {res : BearerTokenResult} :
    token app env (user, client) st = (.ok res, st') ↔
      env.Works ∧ ∃ a r,
        a = env.accessToken client.id (some user.id) (accessTokenExpiration app env) ∧
          r = env.refreshToken a.id (refreshTokenExpiration app env) ∧
            st.insertTokens a r = .ok st' ∧ res = bearer app env a r := by
  unfold token Store.insertTokens
  simp only [Action.bind_eq_ok, AccessTokenRepoService.create_eq_ok,
    RefreshTokenRepoService.create_eq_ok, response_eq_ok, Option.map_some]
  constructor
  · rintro ⟨_, m₁, ⟨rfl, hf₁, hi₁⟩, _, m₂, ⟨rfl, hf₂, hi₂⟩, hs₁, hs₂, rfl, rfl⟩
    exact ⟨⟨hf₁, hf₂, hs₁, hs₂⟩, _, _, rfl, rfl, by rw [hi₁]; exact hi₂, rfl⟩
  · rintro ⟨hw, _, _, rfl, rfl, hi, rfl⟩
    split at hi
    · rename_i m₁ hi₁
      exact ⟨_, m₁, ⟨rfl, hw.insertAccessToken, hi₁⟩, _, st', ⟨rfl, hw.insertRefreshToken, hi⟩,
        hw.signAccessToken, hw.signRefreshToken, rfl, rfl⟩
    · cases hi

theorem refreshAccessToken_eq_ok {app : App} {env : Env} {current : RefreshTokenModel}
    {st st' : Store} {res : BearerTokenResult} (hr : current ∈ st.refreshTokens) :
    refreshAccessToken app env current st = (.ok res, st') ↔
      env.Works ∧ env.fails .destroyAccessToken = false ∧
        ∃ old ∈ st.accessTokens, old.id = current.access_token_id ∧ ∃ a r,
          a = env.accessToken old.client_id old.user_id (refreshTokenExpiration app env) ∧
            r = env.refreshToken a.id (accessTokenExpiration app env) ∧
              (∃ m, st.insertTokens a r = .ok m ∧ st' = m.deleteAccessToken old.id) ∧
                res = bearer app env a r := by
  unfold refreshAccessToken
  simp only [Action.bind_eq_ok, RefreshTokenRepoService.consumeToken_eq_ok hr, response_eq_ok]
  constructor
  · rintro ⟨⟨r, a⟩, _, ⟨old, ho, eo, ha, hr', hf₁, hf₂, hf₃, m, hm, rfl⟩, hs₁, hs₂, rfl, rfl⟩
    exact ⟨⟨hf₁, hf₂, hs₁, hs₂⟩, hf₃, old, ho, eo, a, r, ha, hr', ⟨m, hm, rfl⟩, rfl⟩
  · rintro ⟨hw, hf, old, ho, eo, a, r, ha, hr', ⟨m, hm, rfl⟩, rfl⟩
    exact ⟨(r, a), _, ⟨old, ho, eo, ha, hr', hw.insertAccessToken, hw.insertRefreshToken, hf, m,
      hm, rfl⟩, hw.signAccessToken, hw.signRefreshToken, rfl, rfl⟩

end OauthController

/-! ## The routes -/

/-- `POST /oauth/token`: `LoginAccessTokenGuard`, `TransactionInterceptor`, `token`. -/
def postToken (app : App) (env : Env) (req : Request) : Db BearerTokenResult := do
  let user ← handleRequest (AccessTokenService.validate app env req)
  Action.transaction (OauthController.token app env user)

/-- `POST /oauth/refresh`: `RefreshAccessTokenGuard`, `TransactionInterceptor`,
    `refreshAccessToken`. -/
def postRefresh (app : App) (env : Env) (req : Request) : Db BearerTokenResult := do
  let refreshToken ← handleRequest (RefreshTokenService.validate app env req)
  Action.transaction (OauthController.refreshAccessToken app env refreshToken)

/-- The guard of `/oauth/token` lets the request through with `payload` under `grantType`, for
    `user` and `client`, and leaves `st'`. -/
structure TokenGranted (app : App) (env : Env) (req : Request) (st : Store) (payload : Json)
    (grantType : GrantTypes) (user : UserModel) (client : ClientModel) (st' : Store) : Prop where
  accept : req.acceptsJson = true
  content : AccessTokenService.validateContent app req.body = .ok payload
  grant_type : GrantTypes.ofText? (text payload "grant_type") = some grantType
  granted : Granted app env payload st grantType user client st'

/-- The guard of `/oauth/refresh` lets the request through with `payload`, for the client whose
    credentials it carries and the refresh token it names. -/
structure RefreshGranted (app : App) (env : Env) (req : Request) (st : Store) (payload : Json)
    (client : ClientModel) (current : RefreshTokenModel) : Prop where
  accept : req.acceptsJson = true
  content : RefreshTokenService.validateContent app req.body = .ok payload
  credentials : ClientRepoService.findForIdAndSecret (text payload "client_id")
    (text payload "client_secret") st = .ok (some client)
  mem : current ∈ st.refreshTokens
  bearer : app.verifyAsync (text payload "refresh_token") = some current.id
  active : ∀ t ∈ current.expires_at, env.now ≤ t

section Routes

variable {app : App} {env : Env} {req : Request} {st st' : Store} {res : BearerTokenResult}

/-- A grant is for a client and a user of the store, and takes at most one challenge away. -/
theorem Granted.frame {payload : Json} {grantType : GrantTypes} {user : UserModel}
    {client : ClientModel} (h : Granted app env payload st grantType user client st') :
    user ∈ st.users ∧ client ∈ st.clients ∧ st'.users = st.users ∧ st'.clients = st.clients ∧
      st'.accessTokens = st.accessTokens ∧ st'.refreshTokens = st.refreshTokens := by
  cases h with
  | password hclient huser =>
    obtain ⟨hc, -⟩ := ClientRepoService.findForIdAndSecret_eq_some.mp hclient
    exact ⟨AuthService.mem_of_validateForPassword huser, hc, rfl, rfl, rfl, rfl⟩
  | pkce hcode | code hcode =>
    obtain ⟨-, -, ⟨hu, -⟩, hc, -⟩ := AuthorizationChallengeRepoService.findByPk_eq_ok.mp hcode
    exact ⟨hu, hc, by simp⟩

/-- Every successful `POST /oauth/token`: the guard granted it, and a pair of tokens was added for
    the client and the user of the grant. -/
theorem postToken_eq_ok :
    postToken app env req st = (.ok res, st') ↔
      env.Works ∧ ∃ payload grantType user client m,
        TokenGranted app env req st payload grantType user client m ∧ ∃ a r,
          a = env.accessToken client.id (some user.id)
              (OauthController.accessTokenExpiration app env) ∧
            r = env.refreshToken a.id (OauthController.refreshTokenExpiration app env) ∧
              m.insertTokens a r = .ok st' ∧ res = OauthController.bearer app env a r := by
  unfold postToken
  simp only [Action.bind_eq_ok, handleRequest_eq_ok, Action.transaction_eq_ok, Prod.exists,
    AccessTokenService.validate_eq_ok, OauthController.token_eq_ok]
  constructor
  · rintro ⟨user, client, m, ⟨haccept, payload, g, hcontent, hg, hgranted⟩, hw, h⟩
    exact ⟨hw, payload, g, user, client, m, ⟨haccept, hcontent, hg, hgranted⟩, h⟩
  · rintro ⟨hw, payload, g, user, client, m, ⟨haccept, hcontent, hg, hgranted⟩, h⟩
    exact ⟨user, client, m, ⟨haccept, payload, g, hcontent, hg, hgranted⟩, hw, h⟩

/-- Every successful `POST /oauth/refresh`: a pair was added for the client and the user of the
    old access token, and the old access token went with its refresh tokens. -/
theorem postRefresh_eq_ok :
    postRefresh app env req st = (.ok res, st') ↔
      env.Works ∧ env.fails .destroyAccessToken = false ∧ ∃ payload client current,
        RefreshGranted app env req st payload client current ∧
          ∃ old ∈ st.accessTokens, old.id = current.access_token_id ∧ ∃ a r,
            a = env.accessToken old.client_id old.user_id
                (OauthController.refreshTokenExpiration app env) ∧
              r = env.refreshToken a.id (OauthController.accessTokenExpiration app env) ∧
                (∃ m, st.insertTokens a r = .ok m ∧ st' = m.deleteAccessToken old.id) ∧
                  res = OauthController.bearer app env a r := by
  unfold postRefresh
  simp only [Action.bind_eq_ok, handleRequest_eq_ok, Action.transaction_eq_ok,
    RefreshTokenService.validate_eq_ok]
  constructor
  · rintro ⟨current, m, ⟨haccept, payload, client, hcontent, hcred, hr, hb, hexp, rfl⟩, h⟩
    obtain ⟨hw, hf, h⟩ := (OauthController.refreshAccessToken_eq_ok hr).mp h
    exact ⟨hw, hf, payload, client, current, ⟨haccept, hcontent, hcred, hr, hb, hexp⟩, h⟩
  · rintro ⟨hw, hf, payload, client, current, ⟨haccept, hcontent, hcred, hr, hb, hexp⟩, h⟩
    refine ⟨current, st, ⟨haccept, payload, client, hcontent, hcred, hr, hb, hexp, rfl⟩, ?_⟩
    exact (OauthController.refreshAccessToken_eq_ok hr).mpr ⟨hw, hf, h⟩

/-- The pair of a granted request goes in iff its ids are new. -/
theorem TokenGranted.insertTokens_isOk {payload : Json} {g : GrantTypes} {user : UserModel}
    {client : ClientModel} {m : Store} (h : TokenGranted app env req st payload g user client m)
    {e₁ e₂ : Option ℕ} :
    (∃ st', m.insertTokens (env.accessToken client.id (some user.id) e₁)
      (env.refreshToken (env.accessToken client.id (some user.id) e₁).id e₂) = .ok st') ↔
        env.Fresh st := by
  obtain ⟨hu, hc, hus, hcs, ha, hr⟩ := h.granted.frame
  rw [Env.insertTokens_isOk ⟨client, hcs ▸ hc, rfl⟩ (by rintro _ ⟨⟩; exact ⟨user, hus ▸ hu, rfl⟩)]
  exact ⟨fun h => ⟨ha ▸ h.accessToken, hr ▸ h.refreshToken⟩,
    fun h => ⟨ha ▸ h.accessToken, hr ▸ h.refreshToken⟩⟩

/-- The pair that replaces `old` goes in iff its ids are new. -/
theorem insertTokens_for_old {old : AccessTokenModel} (ho : old ∈ st.accessTokens)
    {e₁ e₂ : Option ℕ} :
    (∃ st', st.insertTokens (env.accessToken old.client_id old.user_id e₁)
      (env.refreshToken (env.accessToken old.client_id old.user_id e₁).id e₂) = .ok st') ↔
        env.Fresh st :=
  Env.insertTokens_isOk (st.accessToken_client old ho) (st.accessToken_user old ho)

/-- A granted request succeeds iff no step fails and the ids are new. -/
theorem postToken_isOk :
    (∃ res st', postToken app env req st = (.ok res, st')) ↔
      env.Works ∧ env.Fresh st ∧ ∃ payload grantType user client m,
        TokenGranted app env req st payload grantType user client m := by
  simp only [postToken_eq_ok]
  constructor
  · rintro ⟨res, st', hw, payload, g, user, client, m, hg, a, r, rfl, rfl, hi, rfl⟩
    exact ⟨hw, hg.insertTokens_isOk.mp ⟨st', hi⟩, payload, g, user, client, m, hg⟩
  · rintro ⟨hw, hfresh, payload, g, user, client, m, hg⟩
    obtain ⟨st', hi⟩ := hg.insertTokens_isOk.mpr hfresh
    exact ⟨_, st', hw, payload, g, user, client, m, hg, _, _, rfl, rfl, hi, rfl⟩

theorem postRefresh_isOk :
    (∃ res st', postRefresh app env req st = (.ok res, st')) ↔
      env.Works ∧ env.Fresh st ∧ env.fails .destroyAccessToken = false ∧
        ∃ payload client current, RefreshGranted app env req st payload client current := by
  simp only [postRefresh_eq_ok]
  constructor
  · rintro ⟨res, st', hw, hf, payload, client, current, hg, old, ho, eo, a, r, rfl, rfl,
      ⟨m, hi, rfl⟩, rfl⟩
    exact ⟨hw, (insertTokens_for_old ho).mp ⟨m, hi⟩, hf, payload, client, current, hg⟩
  · rintro ⟨hw, hfresh, hf, payload, client, current, hg⟩
    obtain ⟨old, ho, eo⟩ := st.refreshToken_accessToken current hg.mem
    obtain ⟨m, hi⟩ := (insertTokens_for_old ho).mpr hfresh
    exact ⟨_, _, hw, hf, payload, client, current, hg, old, ho, eo, _, _, rfl, rfl,
      ⟨m, hi, rfl⟩, rfl⟩

end Routes

end NestTemplate
