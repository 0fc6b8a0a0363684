import NestTemplate.Auth.Runs

/-!
# What the token routes fail with

Nest answers an `HttpException` with its status and every other error with 500.
The guards of `/oauth/token` and `/oauth/refresh` turn a rejected login into a
422, but not the errors of the ORM, of `createHash` and of `verifyAsync`; the
`NotFoundConverterInterceptor` runs behind the guards.

* `tokenGuard_failsIn_iff`, `refreshGuard_failsIn_iff`: the guards.
* `client_errors_iff`: which requests end in a 2xx or a 4xx.
* `unknown_code_internal_error`: one that does not.
-/

namespace NestTemplate

open Common Action

/-- The status of the answer. -/
def Failure.status : Failure → ℕ
  | .notFound _ => 404
  | .unauthorized => 401
  | .forbidden => 403
  | .unprocessable _ | .unprocessableCause _ => 422
  | .emptyResult | .database | .jsonWebToken | .syntaxError | .error _ => 500

def Failure.IsClientError (e : Failure) : Prop := 400 ≤ e.status ∧ e.status < 500

instance (e : Failure) : Decidable e.IsClientError := inferInstanceAs (Decidable (_ ∧ _))

/-- What the routes rely on: PostgreSQL reads the UUIDs that validator.js accepts. -/
structure App.ReadsUuids (app : App) : Prop where
  isUUID : ∀ s, app.isUUID s = true → (Uuid.ofText? s).isSome = true
  isUUID4 : ∀ s, app.isUUID4 s = true → (Uuid.ofText? s).isSome = true

/-- No statement fails, and the ids made in the request are new. -/
structure Env.DatabaseWorks (env : Env) (st : Store) : Prop where
  destroyChallenge : env.fails .destroyChallenge = false
  insertAccessToken : env.fails .insertAccessToken = false
  insertRefreshToken : env.fails .insertRefreshToken = false
  destroyAccessToken : env.fails .destroyAccessToken = false
  fresh : env.Fresh st

/-- Both tokens can be signed. -/
def Env.Signs (env : Env) : Prop :=
  env.fails .signAccessToken = false ∧ env.fails .signRefreshToken = false

/-! ## The handlers -/

section Handlers

variable {app : App} {env : Env} {st : Store}

theorem Store.insertAccessToken_error {a : AccessTokenModel} {e : Failure}
    (h : st.insertAccessToken a = .error e) : e = .database := by
  unfold insertAccessToken at h
  split at h
  · cases h; rfl
  · split at h <;> cases h
    rfl

theorem Store.insertRefreshToken_error {r : RefreshTokenModel} {e : Failure}
    (h : st.insertRefreshToken r = .error e) : e = .database := by
  unfold insertRefreshToken at h
  split at h
  · cases h; rfl
  · split at h <;> cases h
    rfl

theorem failsIn_query {α : Type} {P : Failure → Prop} {f : Store → Except Failure α} :
    FailsIn P (Db.query f) st ↔ ∀ e, f st = .error e → P e := by
  simp [FailsIn]

theorem failsIn_query_bind {α β : Type} {P : Failure → Prop} {g : Store → Except Failure α}
    {f : α → Db β} : FailsIn P (Db.query g >>= f) st ↔
      (∀ e, g st = .error e → P e) ∧ ∀ a, g st = .ok a → FailsIn P (f a) st := by
  rw [failsIn_bind, failsIn_query]
  simp

/-- A statement fails as the database does. -/
theorem failsIn_statement {P : Failure → Prop} {effect : Effect} {f : Store → Except Failure Store}
    (hdatabase : P .database) (hf : ∀ e, f st = .error e → P e) :
    FailsIn P (Db.statement env effect f) st := by
  rw [Db.statement, failsIn_write]
  intro e he
  split at he
  · cases he; exact hdatabase
  · exact hf e he

theorem failsIn_sign {P : Failure → Prop} {effect : Effect} {id : String} (h : ∀ m, P (.error m)) :
    FailsIn P (Db.sign app env effect id) st := by
  unfold Db.sign
  split
  · exact failsIn_fail.2 (h _)
  · exact failsIn_pure _

/-- What a handler fails with is never a client error. -/
theorem failsIn_response {a : AccessTokenModel} {r : RefreshTokenModel} :
    FailsIn (¬ Failure.IsClientError ·) (OauthController.response app env a r) st := by
  have hsign : ∀ m, ¬ (Failure.error m).IsClientError := fun m => by
    simp [Failure.IsClientError, Failure.status]
  exact failsIn_bind.2 ⟨failsIn_sign hsign, fun _ t _ => failsIn_bind.2
    ⟨failsIn_sign hsign, fun _ _ _ => failsIn_pure _⟩⟩

theorem failsIn_createAccessToken {client : ClientModel} {user : Option UserModel}
    {expiresAt : Option ℕ} : FailsIn (¬ Failure.IsClientError ·)
      (AccessTokenRepoService.create env client user expiresAt) st :=
  failsIn_bind.2 ⟨failsIn_statement (by decide) fun e he => by
    rw [Store.insertAccessToken_error he]; decide, fun _ _ _ => failsIn_pure _⟩

theorem failsIn_createRefreshToken {accessToken : AccessTokenModel} {expiresAt : Option ℕ} :
    FailsIn (¬ Failure.IsClientError ·) (RefreshTokenRepoService.create env accessToken expiresAt)
      st :=
  failsIn_bind.2 ⟨failsIn_statement (by decide) fun e he => by
    rw [Store.insertRefreshToken_error he]; decide, fun _ _ _ => failsIn_pure _⟩

theorem failsIn_token (user : UserModel × ClientModel) :
    FailsIn (¬ Failure.IsClientError ·) (OauthController.token app env user) st :=
  failsIn_bind.2 ⟨failsIn_createAccessToken, fun _ _ _ => failsIn_bind.2
    ⟨failsIn_createRefreshToken, fun _ _ _ => failsIn_response⟩⟩

theorem failsIn_consumeToken {current : RefreshTokenModel} {refreshExp accessExp : Option ℕ} :
    FailsIn (¬ Failure.IsClientError ·)
      (RefreshTokenRepoService.consumeToken env current refreshExp accessExp) st := by
  have haccessToken : FailsIn (¬ Failure.IsClientError ·)
      (Db.query (RefreshTokenRepoService.getAccessToken current)) st := by
    refine failsIn_query.2 fun e he => ?_
    unfold RefreshTokenRepoService.getAccessToken at he
    split at he <;> cases he
    decide
  have hclient : ∀ a st', FailsIn (¬ Failure.IsClientError ·)
      (Db.query (RefreshTokenRepoService.getClient a)) st' := by
    intro a st'
    refine failsIn_query.2 fun e he => ?_
    unfold RefreshTokenRepoService.getClient at he
    split at he <;> cases he
    decide
  exact failsIn_bind.2 ⟨haccessToken, fun a st₁ _ => failsIn_bind.2 ⟨hclient a st₁,
    fun client st₂ _ => failsIn_bind.2 ⟨failsIn_read _, fun user st₃ _ => failsIn_bind.2
      ⟨failsIn_createAccessToken, fun _ _ _ => failsIn_bind.2 ⟨failsIn_createRefreshToken,
        fun _ _ _ => failsIn_bind.2 ⟨failsIn_statement (by decide) nofun,
          fun _ _ _ => failsIn_pure _⟩⟩⟩⟩⟩⟩

theorem failsIn_refreshAccessToken (current : RefreshTokenModel) :
    FailsIn (¬ Failure.IsClientError ·) (OauthController.refreshAccessToken app env current) st :=
  failsIn_bind.2 ⟨failsIn_consumeToken, fun _ _ _ => failsIn_response⟩

/-- A granted login ends in a client error, or in success, iff both tokens can be signed. -/
theorem failsIn_token_iff (hdb : env.DatabaseWorks st) {req : Request} {payload : Json}
    {grantType : GrantTypes} {user : UserModel} {client : ClientModel} {m : Store}
    (hgranted : TokenGranted app env req st payload grantType user client m) :
    FailsIn Failure.IsClientError (OauthController.token app env (user, client)) m ↔
      env.Signs := by
  constructor
  · intro h
    obtain ⟨res, st', hok⟩ := exists_ok_of_failsIn h (failsIn_token _)
    obtain ⟨hworks, -⟩ := OauthController.token_eq_ok.1 hok
    exact ⟨hworks.signAccessToken, hworks.signRefreshToken⟩
  · rintro ⟨haccess, hrefresh⟩
    obtain ⟨st', hinsert⟩ := hgranted.insertTokens_isOk.2 hdb.fresh
    exact failsIn_of_ok (OauthController.token_eq_ok.2 ⟨⟨hdb.insertAccessToken,
      hdb.insertRefreshToken, haccess, hrefresh⟩, _, _, rfl, rfl, hinsert, rfl⟩)

theorem failsIn_refreshAccessToken_iff (hdb : env.DatabaseWorks st) {current : RefreshTokenModel}
    (hcurrent : current ∈ st.refreshTokens) :
    FailsIn Failure.IsClientError (OauthController.refreshAccessToken app env current) st ↔
      env.Signs := by
  constructor
  · intro h
    obtain ⟨res, st', hok⟩ := exists_ok_of_failsIn h (failsIn_refreshAccessToken _)
    obtain ⟨hworks, -⟩ := (OauthController.refreshAccessToken_eq_ok hcurrent).1 hok
    exact ⟨hworks.signAccessToken, hworks.signRefreshToken⟩
  · rintro ⟨haccess, hrefresh⟩
    obtain ⟨old, hold, hid⟩ := st.refreshToken_accessToken current hcurrent
    obtain ⟨m, hinsert⟩ := (insertTokens_for_old hold).2 hdb.fresh
    exact failsIn_of_ok ((OauthController.refreshAccessToken_eq_ok hcurrent).2
      ⟨⟨hdb.insertAccessToken, hdb.insertRefreshToken, haccess, hrefresh⟩, hdb.destroyAccessToken,
        old, hold, hid, _, _, rfl, rfl, ⟨m, hinsert, rfl⟩, rfl⟩)

end Handlers

/-! ## The guards -/

section Guards

variable {app : App} {env : Env} {st : Store} {req : Request}

/-- The guards turn one client error into another. -/
theorem failsIn_handleRequest {α : Type} {strategy : Db α} :
    FailsIn Failure.IsClientError (handleRequest strategy) st ↔
      FailsIn Failure.IsClientError strategy st := by
  unfold FailsIn handleRequest
  rcases strategy st with ⟨e | a, t⟩
  · cases e <;> simp [Failure.IsClientError, Failure.status, credentialsError]
  · simp

/-- A body that is refused is a client error, however the validation fails. -/
theorem validate_error {ps : List Property} {body : Option Json} {e : Failure}
    (h : validate ps body = .error e) : e.IsClientError := by
  have hstatus : e.status = 422 := by
    unfold validate at h
    split at h
    · split at h <;> cases h <;> rfl
    · cases h
      rfl
    · cases h
      rfl
  rw [Failure.IsClientError, hstatus]
  decide

theorem findForIdAndSecret_ok {id : String} (secret : String)
    (h : (Uuid.ofText? id).isSome = true) :
    ∃ client, ClientRepoService.findForIdAndSecret id secret st = .ok client := by
  obtain ⟨u, hu⟩ := Option.isSome_iff_exists.1 h
  exact ⟨_, by rw [ClientRepoService.findForIdAndSecret, hu]⟩

/-- A validated login names one of the grant types. -/
theorem grantType_of_validateContent {body : Option Json} {payload : Json}
    (h : AccessTokenService.validateContent app body = .ok payload) :
    ∃ grantType, GrantTypes.ofText? (text payload "grant_type") = some grantType := by
  obtain ⟨-, -, hprops⟩ := validate_eq_ok.1 h
  obtain ⟨henum, -⟩ := hprops
    { name := "grant_type"
      constraints := [.isEnum (GrantTypes.all.map GrantTypes.text), .isNotEmpty] }
    (by simp [AccessTokenDto.properties]) rfl
  obtain ⟨s, hs, hmem⟩ := Constraint.isEnum_check.1 (henum _ List.mem_cons_self)
  obtain ⟨grantType, -, rfl⟩ := List.mem_map.1 hmem
  exact ⟨grantType, by rw [text_of_get? hs, GrantTypes.ofText?_text]⟩

/-- The client of a password login can be looked up. -/
theorem client_id_of_validateContent (happ : app.ReadsUuids) {body : Option Json} {payload : Json}
    (h : AccessTokenService.validateContent app body = .ok payload)
    (hg : GrantTypes.ofText? (text payload "grant_type") = some .ImplicitPassword) :
    (Uuid.ofText? (text payload "client_id")).isSome = true := by
  have hcond : hasGrantType [.ImplicitPassword, .AuthorizationCode] payload = true :=
    hasGrantType_iff.2 ⟨.ImplicitPassword, by simp, by
      rw [AccessTokenDto.grant_type h, GrantTypes.text_of_ofText? hg]⟩
  obtain ⟨-, -, hprops⟩ := validate_eq_ok.1 h
  obtain ⟨hchecks, -⟩ := hprops
    { name := "client_id"
      condition := hasGrantType [.ImplicitPassword, .AuthorizationCode]
      constraints := [.isUuid app.isUUID4, .isString, .isNotEmpty] }
    (by simp [AccessTokenDto.properties]) hcond
  obtain ⟨s, hs, huuid⟩ := Constraint.isUuid_check.1 (hchecks _ List.mem_cons_self)
  rw [text_of_get? hs]
  exact happ.isUUID4 s huuid

/-- So can the client of a refresh. -/
theorem client_id_of_refreshContent (happ : app.ReadsUuids) {body : Option Json} {payload : Json}
    (h : RefreshTokenService.validateContent app body = .ok payload) :
    (Uuid.ofText? (text payload "client_id")).isSome = true := by
  obtain ⟨-, -, hprops⟩ := validate_eq_ok.1 h
  obtain ⟨hchecks, -⟩ := hprops
    { name := "client_id", constraints := [.isUuid app.isUUID, .isNotEmpty] }
    (by simp [RefreshTokenDto.properties]) rfl
  obtain ⟨s, hs, huuid⟩ := Constraint.isUuid_check.1 (hchecks _ List.mem_cons_self)
  rw [text_of_get? hs]
  exact happ.isUUID s huuid

/-- What the grant type relies on: the code is the id of a challenge, and `createHash` knows the
    algorithm that was stored with it. -/
def CodeKnown (app : App) (st : Store) (payload : Json) : GrantTypes → Prop
  | .ImplicitPassword => True
  | .PKCE => ∃ record,
      AuthorizationChallengeRepoService.findByPk (text payload "code") st = .ok record ∧
        (app.createHash record.row.algorithm).isSome = true
  | .AuthorizationCode => ∃ record,
      AuthorizationChallengeRepoService.findByPk (text payload "code") st = .ok record

/-- A code that is not found is no client error. -/
theorem findByPk_error {code : String} {e : Failure}
    (h : AuthorizationChallengeRepoService.findByPk code st = .error e) : ¬ e.IsClientError := by
  unfold AuthorizationChallengeRepoService.findByPk at h
  split at h
  · cases h; decide
  · split at h <;> cases h
    decide

theorem failsIn_consumeCode_iff (hdb : env.DatabaseWorks st) {code : String} :
    FailsIn Failure.IsClientError (AuthorizationChallengeRepoService.consumeCode env code) st ↔
      ∃ record, AuthorizationChallengeRepoService.findByPk code st = .ok record := by
  constructor
  · intro h
    rw [AuthorizationChallengeRepoService.consumeCode, failsIn_transaction, failsIn_bind,
      failsIn_query] at h
    cases hfind : AuthorizationChallengeRepoService.findByPk code st with
    | ok record => exact ⟨record, rfl⟩
    | error e => exact absurd (h.1 e hfind) (findByPk_error hfind)
  · rintro ⟨record, hfind⟩
    exact failsIn_of_ok (AuthorizationChallengeRepoService.consumeCode_eq_ok.2
      ⟨hfind, hdb.destroyChallenge, rfl⟩)

/-- The comparison throws on an unknown algorithm only. -/
theorem compare_error_iff {challenge verifier algorithm : String} :
    (∀ e, AuthorizationChallengeRepoService.compareChallengeAndVerifier app challenge verifier
      algorithm = .error e → e.IsClientError) ↔ (app.createHash algorithm).isSome = true := by
  unfold AuthorizationChallengeRepoService.compareChallengeAndVerifier
  cases app.createHash algorithm <;> simp [Failure.IsClientError, Failure.status]

theorem failsIn_verifyChallenge_iff (hdb : env.DatabaseWorks st) {code verifier : String} :
    FailsIn Failure.IsClientError
      (AuthorizationChallengeRepoService.verifyChallenge app env code verifier) st ↔
        ∃ record, AuthorizationChallengeRepoService.findByPk code st = .ok record ∧
          (app.createHash record.row.algorithm).isSome = true := by
  rw [AuthorizationChallengeRepoService.verifyChallenge, failsIn_bind, failsIn_consumeCode_iff hdb]
  constructor
  · rintro ⟨⟨record, hfind⟩, hcompare⟩
    have hconsume := AuthorizationChallengeRepoService.consumeCode_eq_ok.2
      ⟨hfind, hdb.destroyChallenge, rfl⟩
    have hlift := (failsIn_bind.1 (hcompare record _ hconsume)).1
    exact ⟨record, hfind, compare_error_iff.1 (failsIn_lift.1 hlift)⟩
  · rintro ⟨record, hfind, hhash⟩
    refine ⟨⟨record, hfind⟩, fun found m hconsume => ?_⟩
    obtain ⟨hfound, -⟩ := AuthorizationChallengeRepoService.consumeCode_eq_ok.1 hconsume
    cases hfind.symm.trans hfound
    exact failsIn_bind.2 ⟨failsIn_lift.2 (compare_error_iff.2 hhash), fun _ _ _ => failsIn_pure _⟩

theorem credentialsError_isClientError (property message : String) :
    (credentialsError property message).IsClientError := by
  simp [credentialsError, Failure.IsClientError, Failure.status]

theorem failsIn_grantTypeMappings_iff (happ : app.ReadsUuids) (hdb : env.DatabaseWorks st)
    {payload : Json} (hcontent : AccessTokenService.validateContent app req.body = .ok payload)
    {grantType : GrantTypes}
    (hg : GrantTypes.ofText? (text payload "grant_type") = some grantType) :
    FailsIn Failure.IsClientError (AccessTokenService.grantTypeMappings app env payload grantType)
      st ↔ CodeKnown app st payload grantType := by
  cases grantType with
  | ImplicitPassword =>
    refine iff_of_true ?_ trivial
    obtain ⟨client, hclient⟩ := @findForIdAndSecret_ok st _ (text payload "client_secret")
      (client_id_of_validateContent happ hcontent hg)
    refine failsIn_bind.2 ⟨failsIn_query.2 fun e he => ?_, fun client' m _ => ?_⟩
    · rw [hclient] at he
      cases he
    · cases client' with
      | none => exact failsIn_fail.2 (credentialsError_isClientError _ _)
      | some client' =>
        refine failsIn_bind.2 ⟨failsIn_read _, fun user m' _ => ?_⟩
        cases user with
        | none => exact failsIn_fail.2 (by decide)
        | some user => exact failsIn_pure _
  | PKCE =>
    refine failsIn_bind.trans ((and_iff_left fun result m _ => ?_).trans
      (failsIn_verifyChallenge_iff hdb))
    cases result with
    | none => exact failsIn_fail.2 (credentialsError_isClientError _ _)
    | some record => exact failsIn_pure _
  | AuthorizationCode =>
    have hverify : FailsIn Failure.IsClientError (AuthorizationChallengeRepoService.verifyWithClientId
        env (text payload "code") (text payload "client_id")) st ↔
          ∃ record, AuthorizationChallengeRepoService.findByPk (text payload "code") st =
            .ok record :=
      failsIn_bind.trans ((and_iff_left fun _ _ _ => failsIn_pure _).trans
        (failsIn_consumeCode_iff hdb))
    refine failsIn_bind.trans ((and_iff_left fun result m _ => ?_).trans hverify)
    cases result with
    | none => exact failsIn_fail.2 (credentialsError_isClientError _ _)
    | some record => exact failsIn_pure _

/-- The guard of `/oauth/token`. -/
theorem tokenGuard_failsIn_iff (happ : app.ReadsUuids) (hdb : env.DatabaseWorks st) :
    FailsIn Failure.IsClientError (handleRequest (AccessTokenService.validate app env req)) st ↔
      ∀ payload grantType, req.acceptsJson = true →
        AccessTokenService.validateContent app req.body = .ok payload →
          GrantTypes.ofText? (text payload "grant_type") = some grantType →
            CodeKnown app st payload grantType := by
  rw [failsIn_handleRequest, AccessTokenService.validate, failsIn_guard_bind, failsIn_lift_bind]
  constructor
  · rintro ⟨-, h⟩ payload grantType haccept hcontent hg
    have hmappings := (h haccept).2 payload hcontent
    rw [hg] at hmappings
    exact (failsIn_grantTypeMappings_iff happ hdb hcontent hg).1 hmappings
  · intro h
    refine ⟨fun _ => by decide, fun haccept => ⟨fun e he => validate_error he, ?_⟩⟩
    intro payload hcontent
    obtain ⟨grantType, hg⟩ := grantType_of_validateContent hcontent
    rw [hg]
    exact (failsIn_grantTypeMappings_iff happ hdb hcontent hg).2
      (h payload grantType haccept hcontent hg)

/-- A refresh token that `verifyAsync` rejects is no client error. -/
theorem findRefreshToken_error_iff {token : String} :
    (∀ e, AuthService.findRefreshToken app token st = .error e → e.IsClientError) ↔
      (app.verifyAsync token).isSome = true := by
  unfold AuthService.findRefreshToken AuthService.decode
  cases app.verifyAsync token <;>
    simp [bind, Except.bind, pure, Except.pure, Failure.IsClientError, Failure.status]

/-- The guard of `/oauth/refresh`. -/
theorem refreshGuard_failsIn_iff (happ : app.ReadsUuids) :
    FailsIn Failure.IsClientError (handleRequest (RefreshTokenService.validate app env req)) st ↔
      ∀ payload client, req.acceptsJson = true →
        RefreshTokenService.validateContent app req.body = .ok payload →
          ClientRepoService.findForIdAndSecret (text payload "client_id")
            (text payload "client_secret") st = .ok (some client) →
              (app.verifyAsync (text payload "refresh_token")).isSome = true := by
  rw [failsIn_handleRequest, RefreshTokenService.validate, failsIn_guard_bind, failsIn_lift_bind]
  constructor
  · rintro ⟨-, h⟩ payload client haccept hcontent hclient
    have hquery := (failsIn_query_bind.1 ((h haccept).2 payload hcontent)).2 _ hclient
    have hfind := (failsIn_guard_bind.1 hquery).2 rfl
    exact findRefreshToken_error_iff.1 (failsIn_query_bind.1 hfind).1
  · intro h
    refine ⟨fun _ => by decide, fun haccept => ⟨fun e he => validate_error he, ?_⟩⟩
    intro payload hcontent
    obtain ⟨found, hfound⟩ := @findForIdAndSecret_ok st _ (text payload "client_secret")
      (client_id_of_refreshContent happ hcontent)
    refine failsIn_query_bind.2 ⟨fun e he => ?_, fun client hclient => failsIn_guard_bind.2
      ⟨fun _ => credentialsError_isClientError _ _, fun hsome => ?_⟩⟩
    · rw [hfound] at he
      cases he
    · obtain ⟨client, rfl⟩ := Option.isSome_iff_exists.1 hsome
      refine failsIn_query_bind.2
        ⟨findRefreshToken_error_iff.2 (h payload client haccept hcontent hclient), ?_⟩
      intro refreshToken _
      cases refreshToken with
      | none => exact failsIn_fail.2 (by decide)
      | some refreshToken => exact failsIn_guard_bind.2 ⟨fun _ => by decide, fun _ => failsIn_pure _⟩

/-- The route `/oauth/token`. -/
theorem postToken_failsIn_iff (happ : app.ReadsUuids) (hdb : env.DatabaseWorks st) :
    FailsIn Failure.IsClientError (postToken app env req) st ↔
      (∀ payload grantType, req.acceptsJson = true →
        AccessTokenService.validateContent app req.body = .ok payload →
          GrantTypes.ofText? (text payload "grant_type") = some grantType →
            CodeKnown app st payload grantType) ∧
        ∀ payload grantType user client m,
          TokenGranted app env req st payload grantType user client m → env.Signs := by
  rw [postToken, failsIn_bind, tokenGuard_failsIn_iff happ hdb]
  refine and_congr_right fun _ => ?_
  constructor
  · intro h payload grantType user client m hgranted
    have hguard := handleRequest_eq_ok.2 (AccessTokenService.validate_eq_ok.2
      ⟨hgranted.accept, payload, grantType, hgranted.content, hgranted.grant_type,
        hgranted.granted⟩)
    exact (failsIn_token_iff hdb hgranted).1 (failsIn_transaction.1 (h _ m hguard))
  · rintro h ⟨user, client⟩ m hguard
    obtain ⟨haccept, payload, grantType, hcontent, hg, hgranted⟩ :=
      AccessTokenService.validate_eq_ok.1 (handleRequest_eq_ok.1 hguard)
    have hgranted : TokenGranted app env req st payload grantType user client m :=
      ⟨haccept, hcontent, hg, hgranted⟩
    exact failsIn_transaction.2 ((failsIn_token_iff hdb hgranted).2
      (h payload grantType user client m hgranted))

/-- The route `/oauth/refresh`. -/
theorem postRefresh_failsIn_iff (happ : app.ReadsUuids) (hdb : env.DatabaseWorks st) :
    FailsIn Failure.IsClientError (postRefresh app env req) st ↔
      (∀ payload client, req.acceptsJson = true →
        RefreshTokenService.validateContent app req.body = .ok payload →
          ClientRepoService.findForIdAndSecret (text payload "client_id")
            (text payload "client_secret") st = .ok (some client) →
              (app.verifyAsync (text payload "refresh_token")).isSome = true) ∧
        ∀ payload client current,
          RefreshGranted app env req st payload client current → env.Signs := by
  rw [postRefresh, failsIn_bind, refreshGuard_failsIn_iff happ]
  refine and_congr_right fun _ => ?_
  constructor
  · intro h payload client current hgranted
    have hguard := handleRequest_eq_ok.2 (RefreshTokenService.validate_eq_ok.2
      ⟨hgranted.accept, payload, client, hgranted.content, hgranted.credentials, hgranted.mem,
        hgranted.bearer, hgranted.active, rfl⟩)
    exact (failsIn_refreshAccessToken_iff hdb hgranted.mem).1
      (failsIn_transaction.1 (h current st hguard))
  · intro h current m hguard
    obtain ⟨haccept, payload, client, hcontent, hclient, hmem, hbearer, hactive, rfl⟩ :=
      RefreshTokenService.validate_eq_ok.1 (handleRequest_eq_ok.1 hguard)
    exact failsIn_transaction.2 ((failsIn_refreshAccessToken_iff hdb hmem).2
      (h payload client current ⟨haccept, hcontent, hclient, hmem, hbearer, hactive⟩))

end Guards

/-- **Main theorem**: when the token routes end in nothing but success and client errors. -/
theorem client_errors_iff {app : App} (happ : app.ReadsUuids) {env : Env} {st : Store}
    (hdb : env.DatabaseWorks st) (req : Request) :
    (FailsIn Failure.IsClientError (postToken app env req) st ↔
      (∀ payload grantType, req.acceptsJson = true →
        AccessTokenService.validateContent app req.body = .ok payload →
          GrantTypes.ofText? (text payload "grant_type") = some grantType →
            CodeKnown app st payload grantType) ∧
        ∀ payload grantType user client m,
          TokenGranted app env req st payload grantType user client m → env.Signs) ∧
    (FailsIn Failure.IsClientError (postRefresh app env req) st ↔
      (∀ payload client, req.acceptsJson = true →
        RefreshTokenService.validateContent app req.body = .ok payload →
          ClientRepoService.findForIdAndSecret (text payload "client_id")
            (text payload "client_secret") st = .ok (some client) →
              (app.verifyAsync (text payload "refresh_token")).isSome = true) ∧
        ∀ payload client current,
          RefreshGranted app env req st payload client current → env.Signs) :=
  ⟨postToken_failsIn_iff happ hdb, postRefresh_failsIn_iff happ hdb⟩

namespace Sample

theorem readsUuids : app.ReadsUuids where
  isUUID s h := by
    have htext : isUuidText s.toList = true := h
    rw [Uuid.ofText?, dif_pos htext]
    rfl
  isUUID4 s h := by
    have htext : isUuidText s.toList = true := h
    rw [Uuid.ofText?, dif_pos htext]
    rfl

theorem databaseWorks (grantType : GrantTypes) :
    (env 0 3).DatabaseWorks (clientStore grantType) where
  destroyChallenge := rfl
  insertAccessToken := rfl
  insertRefreshToken := rfl
  destroyAccessToken := rfl
  fresh := ⟨by cases grantType <;> decide, by cases grantType <;> decide⟩

/-- The exchange of a code that was never made, by the client of the store. -/
def unknownCode : Request :=
  exchange .AuthorizationCode [("client_id", (uuid 1).toString), ("client_secret", secret 1)]

/-- A refresh with the client's credentials and no token. -/
def unknownToken : Request :=
  request [("refresh_token", "x"), ("client_id", (uuid 1).toString), ("client_secret", secret 1)]

end Sample

/-- A login with a password. -/
theorem client_errors_iff_sample : FailsIn Failure.IsClientError
    (postToken Sample.app (Sample.env 0 3) Sample.passwordRequest)
      (Sample.clientStore .ImplicitPassword) := by
  refine (client_errors_iff Sample.readsUuids (Sample.databaseWorks _) _).1.2
    ⟨fun payload grantType _ hcontent hg => ?_, fun _ _ _ _ _ _ => ⟨rfl, rfl⟩⟩
  obtain ⟨hbody, -⟩ := validate_eq_ok.1 hcontent
  cases hbody
  cases (show GrantTypes.ofText? _ = some .ImplicitPassword from by decide).symm.trans hg
  trivial

/-- An unknown code and a malformed refresh token end in an internal error. -/
theorem unknown_code_internal_error :
    Reachable Sample.app (Sample.clientStore .AuthorizationCode) ∧
      (Sample.env 0 3).DatabaseWorks (Sample.clientStore .AuthorizationCode) ∧
      Sample.unknownCode.acceptsJson = true ∧ Sample.unknownToken.acceptsJson = true ∧
      ¬ FailsIn Failure.IsClientError
        (postToken Sample.app (Sample.env 0 3) Sample.unknownCode)
          (Sample.clientStore .AuthorizationCode) ∧
      ¬ FailsIn Failure.IsClientError
        (postRefresh Sample.app (Sample.env 0 3) Sample.unknownToken)
          (Sample.clientStore .AuthorizationCode) := by
  have hdb := Sample.databaseWorks .AuthorizationCode
  refine ⟨⟨_, run_performAll _ _ _⟩, hdb, by decide, by decide, fun h => ?_,
    fun h => ?_⟩
  · have hguard := (tokenGuard_failsIn_iff Sample.readsUuids hdb).1 (failsIn_bind.1 h).1
    obtain ⟨record, hfind⟩ := hguard _ .AuthorizationCode (by decide)
      (validate_of_toOption (by decide)) (by decide)
    obtain ⟨-, hmem, -⟩ := AuthorizationChallengeRepoService.findByPk_eq_ok.1 hfind
    have hnone : ∀ r ∈ (Sample.clientStore .AuthorizationCode).challenges, False := by
      decide
    exact hnone _ hmem
  · have hguard := (refreshGuard_failsIn_iff Sample.readsUuids).1 (failsIn_bind.1 h).1
    have hverified := hguard _ (Sample.client .AuthorizationCode) (by decide)
      (validate_of_toOption (by decide))
      (ClientRepoService.findForIdAndSecret_eq_some.2 (by decide))
    revert hverified
    decide

end NestTemplate
