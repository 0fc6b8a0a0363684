import NestTemplate.Auth.ClientAnswer
import NestTemplate.Auth.PkceComparison
import NestTemplate.Auth.TokenLives

/-!
# The PKCE flow of an honest client, from the login page to the last bearer

The modules before this one are about single requests of the flow. Here they
are put together: a client that asks for a code, exchanges it with its verifier,
uses the bearer and refreshes it gets through, whatever other requests come in
between, unless one of them spends the code or ends the tokens.

* `exchange_succeeds`: the exchange of a code that is there, with its verifier.
* `refresh_succeeds`: the rotation of a refresh token that is there.
* `pkce_flow_completes`: the whole flow.
* `keeps_logged_in`: any number of rotations, with other steps between them.
-/

namespace NestTemplate

open Common

/-! ## The requests of the client -/

/-- `Accept: application/json` and a JSON body of texts. -/
def jsonRequest (fields : List (String × String)) : Request where
  accept := some "application/json"
  body := some (.obj (fields.map fun (k, v) => (k, .str v)))

/-- The exchange of a code. -/
def pkceExchange (code : Uuid) (verifier : String) : Request :=
  jsonRequest [("grant_type", GrantTypes.PKCE.text), ("code", code.toString),
    ("code_verifier", verifier)]

/-- The rotation of a refresh token with the credentials of a client. -/
def rotation (client : ClientModel) (bearer : String) : Request :=
  jsonRequest [("refresh_token", bearer), ("client_id", client.id.toString),
    ("client_secret", client.secret)]

section Requests

variable {app : App}

theorem jsonRequest_acceptsJson (fields : List (String × String)) :
    (jsonRequest fields).acceptsJson = true := by
  show (⟨some "application/json", none⟩ : Request).acceptsJson = true
  decide

/-- The payload of `pkceExchange`. -/
theorem pkceExchange_content {code : Uuid} {verifier : String}
    (hcode : app.isUUID4 code.toString = true) (hverifier : verifier ≠ "") :
    ∃ payload, AccessTokenService.validateContent app (pkceExchange code verifier).body =
        .ok payload ∧ text payload "grant_type" = GrantTypes.PKCE.text ∧
          text payload "code" = code.toString ∧ text payload "code_verifier" = verifier := by
  refine ⟨_, validate_eq_ok.mpr ⟨rfl, ⟨_, rfl⟩, ?_⟩, rfl, rfl, rfl⟩
  simp only [AccessTokenDto.properties, List.forall_mem_cons, List.not_mem_nil, false_implies,
    implies_true, and_true, Property.Holds]
  refine ⟨fun h => ?_, fun h => ?_, fun h => ?_, fun h => ?_, ?_, ?_, ?_⟩
  -- the four fields of the other grant types are not looked at
  · cases h
  · cases h
  · cases h
  · cases h
  · exact fun _ => ⟨Constraint.isEnum_check.mpr ⟨_, rfl, by decide⟩,
      Constraint.isNotEmpty_check.mpr (by decide)⟩
  · exact fun _ => ⟨Constraint.isString_check.mpr ⟨_, rfl⟩,
      Constraint.isNotEmpty_check.mpr hverifier⟩
  · exact fun _ => ⟨Constraint.isUuid_check.mpr ⟨_, rfl, hcode⟩,
      Constraint.isNotEmpty_check.mpr code.toString_ne_empty⟩

theorem rotation_content {client : ClientModel} {bearer : String} (hbearer : bearer ≠ "")
    (hid : app.isUUID client.id.toString = true) (hsecret : client.secret ≠ "") :
    ∃ payload, RefreshTokenService.validateContent app (rotation client bearer).body =
        .ok payload ∧ text payload "refresh_token" = bearer ∧
          text payload "client_id" = client.id.toString ∧
            text payload "client_secret" = client.secret := by
  refine ⟨_, validate_eq_ok.mpr ⟨rfl, ⟨_, rfl⟩, ?_⟩, rfl, rfl, rfl⟩
  simp only [RefreshTokenDto.properties, List.forall_mem_cons, List.not_mem_nil, false_implies,
    implies_true, and_true, Property.Holds]
  refine ⟨fun _ => ?_, fun _ => ?_, fun _ => ?_⟩
  · exact ⟨Constraint.isString_check.mpr ⟨_, rfl⟩, Constraint.isNotEmpty_check.mpr hbearer⟩
  · exact ⟨Constraint.isUuid_check.mpr ⟨_, rfl, hid⟩,
      Constraint.isNotEmpty_check.mpr client.id.toString_ne_empty⟩
  · exact ⟨Constraint.isString_check.mpr ⟨_, rfl⟩, Constraint.isNotEmpty_check.mpr hsecret⟩

end Requests

/-! ## One step of the flow at a time -/

section Steps

variable {app : App} {env : Env} {st : Store}

/-- The exchange of a code with its verifier gives a pair for the user of the code. -/
theorem exchange_succeeds {r : AuthorizationChallengeModel} {verifier : String}
    {hash : Bytes → Bytes} (hr : r ∈ st.challenges) (hcode : app.isUUID4 r.id.toString = true)
    (hverifier : verifier ≠ "") (hhash : app.createHash r.algorithm = some hash)
    (hchallenge : r.challenge = base64UrlEncode (hash (utf8 verifier)))
    (hworks : env.Works) (hfresh : env.Fresh st) (hdestroy : env.fails .destroyChallenge = false) :
    ∃ a x res st', Issues app st (.token env (pkceExchange r.id verifier)) env a x res st' ∧
      res = OauthController.bearer app env a x ∧ a.client_id = r.client_id ∧
        a.user_id = some r.user_id ∧
          a.expires_at = OauthController.accessTokenExpiration app env := by
  obtain ⟨payload, hcontent, hgrant, hcodeText, hverifierText⟩ :=
    pkceExchange_content hcode hverifier
  obtain ⟨record, hfind, rfl⟩ := AuthorizationChallengeRepoService.findByPk_isOk hr
    (show Uuid.ofText? (text payload "code") = some r.id by rw [hcodeText, Uuid.ofText?_toString])
  obtain ⟨-, -, ⟨hu, eu⟩, hc, ec⟩ := AuthorizationChallengeRepoService.findByPk_eq_ok.mp hfind
  have hcompare : AuthorizationChallengeRepoService.compareChallengeAndVerifier app
      record.row.challenge (text payload "code_verifier") record.row.algorithm = .ok true := by
    rw [hchallenge, hverifierText,
      AuthorizationChallengeRepoService.compareChallengeAndVerifier_base64Url hhash]
    simp
  have hgranted : TokenGranted app env (pkceExchange record.row.id verifier) st payload .PKCE
      record.user record.client (st.deleteChallenge record.row.id) :=
    ⟨jsonRequest_acceptsJson _, hcontent, by rw [hgrant]; rfl, .pkce hfind hdestroy hcompare⟩
  obtain ⟨st', hi⟩ := hgranted.insertTokens_isOk.mpr hfresh
  exact ⟨_, _, _, st', .token hworks hgranted rfl rfl hi, rfl, ec, congrArg some eu, rfl⟩

/-- The pair that a rotation makes in the place of the access token `old`. -/
def rotatedAccessToken (app : App) (env : Env) (old : AccessTokenModel) : AccessTokenModel :=
  env.accessToken old.client_id old.user_id (OauthController.refreshTokenExpiration app env)

def rotatedRefreshToken (app : App) (env : Env) (old : AccessTokenModel) : RefreshTokenModel :=
  env.refreshToken (rotatedAccessToken app env old).id
    (OauthController.accessTokenExpiration app env)

/-- The rotation of a refresh token with the credentials of any client gives a pair for the user of
    the old one. -/
theorem refresh_succeeds {r : RefreshTokenModel} {old : AccessTokenModel} {client : ClientModel}
    (hjwt : app.JwtInverse) (hr : r ∈ st.refreshTokens) (ho : old ∈ st.accessTokens)
    (eo : old.id = r.access_token_id) (hactive : ∀ t ∈ r.expires_at, env.now ≤ t)
    (hclient : client ∈ st.clients) (hid : app.isUUID client.id.toString = true)
    (hsecret : client.secret ≠ "") (hbearer : app.signAsync r.id ≠ "") (hworks : env.Works)
    (hfresh : env.Fresh st) (hdestroy : env.fails .destroyAccessToken = false) :
    ∃ st', Issues app st (.refresh env (rotation client (app.signAsync r.id))) env
      (rotatedAccessToken app env old) (rotatedRefreshToken app env old)
      (OauthController.bearer app env (rotatedAccessToken app env old)
        (rotatedRefreshToken app env old)) st' := by
  obtain ⟨payload, hcontent, hbearerText, hidText, hsecretText⟩ :=
    rotation_content hbearer hid hsecret
  have hgranted : RefreshGranted app env (rotation client (app.signAsync r.id)) st payload client r :=
    { accept := jsonRequest_acceptsJson _
      content := hcontent
      credentials := ClientRepoService.findForIdAndSecret_eq_some.mpr
        ⟨hclient, by rw [hidText, Uuid.ofText?_toString], hsecretText.symm⟩
      mem := hr
      bearer := by rw [hbearerText]; exact (hjwt _ _).mpr rfl
      active := hactive }
  obtain ⟨m, hi⟩ := (insertTokens_for_old ho).mpr hfresh
  exact ⟨_, .refresh hworks hdestroy hgranted ho eo rfl rfl hi⟩

end Steps

/-! ## The whole flow -/

/-- A client asks for a code with the challenge of its verifier, a user logs in, and nothing stops
    the pages in between. -/
structure HonestLogin (app : App) (browser : Browser) (env : Env) (senv : SessionEnv)
    (st₀ st : Store) (query : Query) (token email password : String) (user : UserModel)
    (verifier : String) (hash : Bytes → Bytes) : Prop where
  shown : AuthorizationController.showLogin app st₀ query = .ok token
  pkce : (AuthorizationDto.ofQuery query).get? "grant_type" = some (.str GrantTypes.PKCE.text)
  challenge : text (AuthorizationDto.ofQuery query) "code_challenge" =
    base64UrlEncode (hash (utf8 verifier))
  algorithm : app.createHash (text (AuthorizationDto.ofQuery query) "algorithm") = some hash
  verifier : verifier ≠ ""
  carried : Carried app browser env senv st (AuthorizationDto.ofQuery query) email password
  credentials : AuthService.validateForPassword app email password st = some user
  code : app.isUUID4 env.uuid.toString = true

/-- The access token `a` of `user`, with its refresh token. -/
structure LoggedIn (user : ℕ) (client : Uuid) (a : AccessTokenModel) (r : RefreshTokenModel)
    (st : Store) : Prop where
  accessToken : a ∈ st.accessTokens
  refreshToken : r ∈ st.refreshTokens
  references : r.access_token_id = a.id
  user_id : a.user_id = some user
  client_id : a.client_id = client

section Flow

variable {app : App} {env : Env} {st st' : Store} {user : ℕ} {client : Uuid}
  {a : AccessTokenModel} {r : RefreshTokenModel}

/-- A refresh token is there as long as its access token. -/
theorem refreshToken_stays {op : Op} (hr : r ∈ st.refreshTokens)
    (ha : a ∈ (op.perform app st).accessTokens) (hmem : a ∈ st.accessTokens)
    (href : r.access_token_id = a.id) : r ∈ (op.perform app st).refreshTokens := by
  cases token_change app op st with
  | same hu hc hres h =>
    rw [h.refreshTokens]
    exact hr
  | issued hguard hissue hclient huser h => exact (h.refreshTokens r).mpr (.inr hr)
  | rotated hissue hpresents hold h =>
    refine (h.refreshTokens r).mpr (.inr ⟨hr, fun hid => ?_⟩)
    rcases (h.accessTokens a).mp ha with rfl | ⟨-, hne⟩
    · exact h.accessToken a hmem rfl
    · exact hne (Table.eq_of_key_eq hmem h.old_mem (href.symm.trans hid))
  | deletedUser h => exact (h.refreshTokens r).mpr ⟨hr, a, ha, href.symm⟩
  | deletedClient h => exact (h.refreshTokens r).mpr ⟨hr, a, ha, href.symm⟩

/-- A user stays logged in over the steps that do not end the access token. -/
theorem LoggedIn.run {ops : List Op} (h : LoggedIn user client a r st)
    (hrun : Run (Step app) st ops st')
    (hlives : Along (Step app) (fun m op => ¬ op.Ends app m a) st ops) :
    LoggedIn user client a r st' := by
  refine hrun.invariant_along (I := LoggedIn user client a r) ?_ hlives h
  rintro s op t hs hends rfl
  have ha := (mem_perform_iff hs.accessToken).mpr hends
  exact ⟨ha, refreshToken_stays hs.refreshToken ha hs.accessToken hs.references, hs.references,
    hs.user_id, hs.client_id⟩

/-- The bearer of a user who is logged in works until it expires. -/
theorem LoggedIn.authenticates (hjwt : app.JwtInverse) (h : LoggedIn user client a r st) {now : ℕ}
    (hactive : a.Active st now) :
    ∃ u ∈ st.users, u.id = user ∧
      AuthService.findUserByToken app now (app.signAsync a.id) st = .ok (some u) := by
  obtain ⟨u, hu, eu⟩ := st.accessToken_user a h.accessToken user h.user_id
  refine ⟨u, hu, eu, AuthService.findUserByToken_eq_some.mpr ⟨hu, a, h.accessToken, ?_, ?_, hactive⟩⟩
  · exact (hjwt _ _).mpr rfl
  · rw [h.user_id, eu]

/-- **Main theorem**: the login of an honest client ends in a redirect with a code. Whatever steps
    come next, as long as none spends the code, its exchange with the verifier gives a pair of
    tokens; and whatever steps come after that, as long as none ends them, the bearer
    authenticates the user until it expires. -/
theorem pkce_flow_completes (hjwt : app.JwtInverse) {browser : Browser} {senv : SessionEnv}
    {st₀ : Store} {s : Server} {query : Query} {token email password verifier : String}
    {user : UserModel} {hash : Bytes → Bytes}
    (h : HonestLogin app browser env senv st₀ s.1 query token email password user verifier hash)
    (passwordId : Uuid) (cookie : String) :
    ∃ row own location st₁ w₁,
      browserFlow app browser env senv passwordId cookie token email password s =
        (.ok location, (st₁, w₁)) ∧ ReturnsTo own row.id "" location ∧
      Url.parse app.urlFront (text (AuthorizationDto.ofQuery query) "redirect_url") = some own ∧
      ∀ ops st₂, Run (Step app) st₁ ops st₂ → (∀ op ∈ ops, op.codeId ≠ some row.id) →
        Along (Step app) (fun _ op => ¬ op.Spends app row) st₁ ops →
        ∀ env₂ : Env, env₂.Works → env₂.fails .destroyChallenge = false → env₂.Fresh st₂ →
          ∃ a r res st₃, postToken app env₂ (pkceExchange row.id verifier) st₂ = (.ok res, st₃) ∧
            LoggedIn user.id row.client_id a r st₃ ∧
            ∀ ops' st₄ now, Run (Step app) st₃ ops' st₄ →
              Along (Step app) (fun m op => ¬ op.Ends app m a) st₃ ops' →
              (∀ t ∈ OauthController.accessTokenExpiration app env₂, now ≤ t) →
              (∃ c ∈ st₄.clients, c.id = row.client_id ∧ c.is_revoked = false) →
              ∃ u ∈ st₄.users, u.id = user.id ∧
                AuthService.findUserByToken app now res.access_token st₄ = .ok (some u) := by
  obtain ⟨own, hown⟩ := Option.isSome_iff_exists.mp h.carried.redirect_url.2
  obtain ⟨row, st₁, w₁, ⟨⟨g, hm⟩, hi⟩, hflow⟩ := h.carried.redirects h.shown h.credentials hown
  have hg : g = .PKCE := by
    have hgrant := hm.grant_type.symm.trans h.pkce
    exact GrantTypes.text_injective (by simpa using hgrant)
  subst hg
  have hrow : row ∈ st₁.challenges := ((Store.insertChallenge_eq_ok hi).1 row).mpr (.inl rfl)
  refine ⟨row, own, _, st₁, w₁, hflow, returnsTo_append.mpr rfl, hown, ?_⟩
  intro ops st₂ hrun hfresh hunspent env₂ hworks hdestroy hnew
  have hrow₂ := (code_lives hrun hrow hfresh).mpr hunspent
  obtain ⟨a, r, res, st₃, hissue, rfl, hclient, huser, hexp⟩ := exchange_succeeds hrow₂
    (hm.id ▸ h.code) h.verifier (hm.algorithm ▸ h.algorithm) (hm.challenge.trans h.challenge)
    hworks hnew hdestroy
  have hlogged : LoggedIn user.id row.client_id a r st₃ :=
    ⟨hissue.mem.1, hissue.mem.2.1, hissue.newPair.references, by rw [huser, hm.user_id], hclient⟩
  refine ⟨a, r, _, st₃, hissue.postToken, hlogged, fun ops' st₄ now hrun' hlives hnow hactive => ?_⟩
  exact (hlogged.run hrun' hlives).authenticates hjwt ⟨hexp ▸ hnow, hclient ▸ hactive⟩

end Flow

/-! ## Rotation after rotation -/

/-- Steps of others, and then a rotation with the credentials of `client`. -/
structure Round where
  ops : List Op
  env : Env
  client : ClientModel

namespace Round

/-- The response to the rotation of `bearer`, and the store after it. -/
def play (app : App) (round : Round) (st : Store) (bearer : String) :
    Except Failure BearerTokenResult × Store :=
  postRefresh app round.env (rotation round.client bearer) (performAll app round.ops st)

/-- The steps before the rotation do not end the pair, the rotation comes in time and with the
    credentials of a client, and no step of it fails. -/
structure Timely (app : App) (round : Round) (st : Store) (a : AccessTokenModel)
    (r : RefreshTokenModel) : Prop where
  lives : Along (Step app) (fun m op => ¬ op.Ends app m a) st round.ops
  active : ∀ t ∈ r.expires_at, round.env.now ≤ t
  client : round.client ∈ (performAll app round.ops st).clients
  client_id : app.isUUID round.client.id.toString = true
  client_secret : round.client.secret ≠ ""
  works : round.env.Works
  destroy : round.env.fails .destroyAccessToken = false
  fresh : round.env.Fresh (performAll app round.ops st)

end Round

/-- The responses to the rotations, each with the refresh token of the response before. -/
def playAll (app : App) : List Round → Store → BearerTokenResult →
    Except Failure (BearerTokenResult × Store)
  | [], st, res => .ok (res, st)
  | round :: rounds, st, res =>
    match round.play app st res.refresh_token with
    | (.ok res, st) => playAll app rounds st res
    | (.error e, _) => .error e

/-- Every round is timely in the store the ones before it leave, for the pair they made. -/
def AllTimely (app : App) : List Round → Store → AccessTokenModel → RefreshTokenModel → Prop
  | [], _, _, _ => True
  | round :: rounds, st, a, r => round.Timely app st a r ∧
    AllTimely app rounds (round.play app st (app.signAsync r.id)).2
      (rotatedAccessToken app round.env a) (rotatedRefreshToken app round.env a)

section Rounds

variable {app : App} {st : Store} {user : ℕ} {client : Uuid} {a : AccessTokenModel}
  {r : RefreshTokenModel}

/-- A timely round logs the user in with the pair it makes. -/
theorem Round.Timely.play {round : Round} (hjwt : app.JwtInverse)
    (hbearer : ∀ id, app.signAsync id ≠ "") (hlogged : LoggedIn user client a r st)
    (h : round.Timely app st a r) :
    ∃ st', round.play app st (app.signAsync r.id) =
        (.ok (OauthController.bearer app round.env (rotatedAccessToken app round.env a)
          (rotatedRefreshToken app round.env a)), st') ∧
      LoggedIn user client (rotatedAccessToken app round.env a)
        (rotatedRefreshToken app round.env a) st' := by
  have hm := hlogged.run (run_performAll app round.ops st) h.lives
  obtain ⟨st', hissue⟩ := refresh_succeeds hjwt hm.refreshToken hm.accessToken hm.references.symm
    h.active h.client h.client_id h.client_secret (hbearer _) h.works h.fresh h.destroy
  exact ⟨st', hissue.postRefresh, hissue.mem.1, hissue.mem.2.1, rfl, hm.user_id, hm.client_id⟩

/-- **Main theorem**: a client that rotates in time is never refused, whatever others do that does
    not end its tokens, and after any number of rotations its user is logged in with the pair of
    the last response. -/
theorem keeps_logged_in (hjwt : app.JwtInverse) (hbearer : ∀ id, app.signAsync id ≠ "")
    {rounds : List Round} {res : BearerTokenResult} (hlogged : LoggedIn user client a r st)
    (hres : res.access_token = app.signAsync a.id ∧ res.refresh_token = app.signAsync r.id)
    (h : AllTimely app rounds st a r) :
    ∃ res' st' a' r', playAll app rounds st res = .ok (res', st') ∧ LoggedIn user client a' r' st' ∧
      res'.access_token = app.signAsync a'.id ∧ res'.refresh_token = app.signAsync r'.id := by
  induction rounds generalizing st a r res with
  | nil => exact ⟨res, st, a, r, rfl, hlogged, hres⟩
  | cons round rounds ih =>
    obtain ⟨hround, hrest⟩ := h
    obtain ⟨m, hplay, hnext⟩ := hround.play hjwt hbearer hlogged
    rw [hplay] at hrest
    rw [playAll, hres.2, hplay]
    exact ih hnext ⟨rfl, rfl⟩ hrest

end Rounds

namespace Sample

/-- The verifier of the challenge in `query`. -/
def verifier : String := "dBjftJeZ4CVP-mB92K27uhbUJU1p1r_wW1gFWFOEjXk"

theorem honestLogin : HonestLogin app browser (env 0 2) sessionEnv (clientStore .PKCE)
    (clientStore .PKCE) (query "") (token "") "a@example.com" "abc123xyz" user verifier
    (fun _ => [19, 211, 30, 150, 26, 26, 216, 236, 47, 22, 177, 12, 76, 152, 46, 8,
      118, 168, 120, 173, 109, 241, 68, 86, 110, 225, 137, 74, 203, 112, 249, 195]) where
  shown := showLogin_query (.inl rfl)
  pkce := by rfl
  challenge := by decide
  algorithm := by rfl
  verifier := by decide
  carried := carried_query (.inl rfl)
  credentials := validateForPassword_user
  code := by decide

end Sample

/-- The code of the flow is exchanged at once, and the bearer used. -/
theorem pkce_flow_completes_sample :
    ∃ location st₁ w₁, Sample.queryFlow "" = (.ok location, (st₁, w₁)) ∧
      ∃ code res st₂, postToken Sample.app (Sample.pairEnv 5 2 3)
          (pkceExchange code Sample.verifier) st₁ = (.ok res, st₂) ∧
        ∃ u ∈ st₂.users, u.id = 1 ∧
          AuthService.findUserByToken Sample.app 6 res.access_token st₂ = .ok (some u) := by
  obtain ⟨row, own, location, st₁, w₁, hflow, -, -, hexchange⟩ := pkce_flow_completes
    (s := (Sample.clientStore .PKCE, Sample.sessions)) Sample.jwtInverse Sample.honestLogin
    (Sample.uuid 9) "before"
  obtain ⟨-, -, -, -, -, -, row', -, -, ⟨-, -, hi⟩, -⟩ :=
    (browserFlow_redirects (Sample.showLogin_query (.inl rfl))).mp ⟨w₁, hflow⟩
  obtain ⟨-, hu, hc, ha, hr⟩ := Store.insertChallenge_eq_ok hi
  have hfresh : (Sample.pairEnv 5 2 3).Fresh st₁ := ⟨by rw [ha]; decide, by rw [hr]; decide⟩
  obtain ⟨a, r, res, st₂, hpost, hlogged, hbearer⟩ := hexchange [] st₁ (.nil st₁) (by simp)
    (.of_forall (by simp)) (Sample.pairEnv 5 2 3) ⟨rfl, rfl, rfl, rfl⟩ rfl hfresh
  have hactive : ∃ c ∈ st₂.clients, c.id = row.client_id ∧ c.is_revoked = false := by
    obtain ⟨c, hmem, hid⟩ := st₂.accessToken_client a hlogged.accessToken
    obtain ⟨hclients, -⟩ := @perform_request Sample.app
      (.token (Sample.pairEnv 5 2 3) (pkceExchange row.id Sample.verifier)) st₁ rfl
    rw [Op.perform, hpost, hc] at hclients
    have hnone : ∀ c ∈ (Sample.clientStore .PKCE).clients, c.is_revoked = false := by decide
    exact ⟨c, hmem, hid.trans hlogged.client_id, hnone c (hclients ▸ hmem)⟩
  exact ⟨location, st₁, w₁, hflow, row.id, res, st₂, hpost,
    hbearer [] st₂ 6 (.nil st₂) (.of_forall (by simp)) (by decide) hactive⟩

namespace Sample

/-- The refresh token `3`. -/
def firstRefreshToken : RefreshTokenModel :=
  (pairEnv 5 2 3).refreshToken firstToken.id (some 2005)

theorem signAsync_ne_empty (id : String) : app.signAsync id ≠ "" := by
  intro h
  have hlist := congrArg String.toList (show "eyJhbGciOiJIUzI1NiJ9." ++ id = "" from h)
  rw [String.toList_append] at hlist
  exact absurd (List.append_eq_nil_iff.mp hlist).1 (by decide)

/-- The pair `2` and `3` rotated at time 6, while the client is revoked. -/
def round : Round where
  ops := [.revokeClient (uuid 1)]
  env := pairEnv 6 4 5
  client := client .ImplicitPassword

theorem round_timely :
    round.Timely app (performAll app pairRun .empty) firstToken firstRefreshToken where
  lives := .of_forall fun op hop _ => by
    cases List.mem_singleton.mp hop
    exact id
  active := by decide
  client := by decide
  client_id := by decide
  client_secret := by decide
  works := ⟨rfl, rfl, rfl, rfl⟩
  destroy := rfl
  fresh := ⟨by decide, by decide⟩

/-- The new pair rotated at time 7, after the user has lost the password. -/
def secondRound : Round where
  ops := [.updateUser 1 "a@example.com" none]
  env := pairEnv 7 6 7
  client := client .ImplicitPassword

set_option maxRecDepth 4000 in
theorem secondRound_timely :
    secondRound.Timely app
      (round.play app (performAll app pairRun .empty) (app.signAsync firstRefreshToken.id)).2
      (rotatedAccessToken app round.env firstToken)
      (rotatedRefreshToken app round.env firstToken) where
  lives := .of_forall fun op hop _ => by
    cases List.mem_singleton.mp hop
    exact id
  active := by decide
  client := by decide
  client_id := by decide
  client_secret := by decide
  works := ⟨rfl, rfl, rfl, rfl⟩
  destroy := rfl
  fresh := ⟨by decide, by decide⟩

end Sample

theorem keeps_logged_in_sample :
    ∃ res' st' a' r', playAll Sample.app [Sample.round, Sample.secondRound]
        (performAll Sample.app Sample.pairRun .empty)
        (OauthController.bearer Sample.app (Sample.pairEnv 5 2 3) Sample.firstToken
          Sample.firstRefreshToken) = .ok (res', st') ∧ LoggedIn 1 (Sample.uuid 1) a' r' st' ∧
      res'.access_token = Sample.app.signAsync a'.id ∧
        res'.refresh_token = Sample.app.signAsync r'.id :=
  keeps_logged_in Sample.jwtInverse Sample.signAsync_ne_empty
    ⟨by decide, by decide, rfl, rfl, rfl⟩ ⟨rfl, rfl⟩
    ⟨Sample.round_timely, Sample.secondRound_timely, trivial⟩

end NestTemplate
