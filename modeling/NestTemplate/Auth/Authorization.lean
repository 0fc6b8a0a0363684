import NestTemplate.Auth.Oauth

/-!
# `POST /oauth/authorization/login`

The guard decrypts the token of the form, validates the authorization request
in it together with the credentials, and finds the user; `processLoginAttempt`
then writes the challenge row whose id is the code. What follows it, the new
session and the redirect, writes nothing to the tables.

* `AuthorizationDto.valid_of_holds`: what a validated authorization request is.
* `postLogin_eq_ok`: every login that creates a code, and its row.
-/

namespace NestTemplate

open Common

/-! ## `AuthorizationLoginStrategy` -/

namespace AuthorizationLoginStrategy

/-- `request.body || {}`. -/
def bodyOrEmpty (body : Option Json) : Json :=
  if Json.truthy body then body.getD (.obj []) else .obj []

/-- `decryptToken`. `decrypt` throws before there is a promise, so the `catch` of the method only
    sees what `JSON.parse` throws. -/
def decryptToken (app : App) (body : Json) : Except Failure Json :=
  match body.get? "token" with
  | some (.str token) =>
    match app.decrypt token with
    | .error e => .error e
    | .ok result =>
      match Json.parse result with
      | some content => .ok content
      | none => .error (credentialsError "token" "Token is not valid")
  | _ => .ok (.obj [])

/-- `request.body.token = token`. Besides objects only arrays come as a body, and the property of
    an array is none of its elements. -/
def withToken (body token : Json) : Json :=
  match body with
  | .obj ms => .obj (Json.setMember "token" token ms)
  | body => body

def validateContent (app : App) (body : Json) (st : Store) : Except Failure Json :=
  NestTemplate.validate (LoginDto.properties app st) (some body)

def validate (app : App) (requestBody : Option Json) : Db (UserModel × Json) := do
  let body := bodyOrEmpty requestBody
  let token ← Action.lift (decryptToken app body)
  let loginCredentials ← Db.query (validateContent app (withToken body token))
  let user ← Action.read (AuthService.validateForPassword app
    (text loginCredentials "email") (text loginCredentials "password"))
  match user with
  | none => Action.fail .unauthorized
  | some user => return (user, (loginCredentials.get? "token").getD .null)

end AuthorizationLoginStrategy

/-! ## `AuthorizationController` -/

namespace AuthorizationController

/-- `processLoginAttempt`. The token may also be an array of authorization requests, which has no
    grant type. -/
def processLoginAttempt (env : Env) (user : UserModel) (authorization : Json) :
    Db AuthorizationChallengeModel :=
  match ((authorization.get? "grant_type").bind Json.str?).bind GrantTypes.ofText? with
  | some .PKCE =>
    AuthorizationChallengeRepoService.createWithPkceCodeChallenge env user
      (text authorization "client_id") (text authorization "code_challenge")
      (text authorization "algorithm")
  | some .AuthorizationCode =>
    AuthorizationChallengeRepoService.createForAuthorizationCode env user
      (text authorization "client_id")
  | _ =>
    let grant_type := ((authorization.get? "grant_type").bind Json.str?).getD "undefined"
    Action.fail (.error
      ("Grant type " ++ grant_type ++ " is not allowed in authorization flow"))

end AuthorizationController

/-- `POST /oauth/authorization/login` up to the end of its transaction: the challenge row, for the
    authorization request it was made for. -/
def postLogin (app : App) (env : Env) (body : Option Json) :
    Db (AuthorizationChallengeModel × UserModel × Json) := do
  let (user, authorization) ← handleRequest (AuthorizationLoginStrategy.validate app body)
  let row ← Action.transaction
    (AuthorizationController.processLoginAttempt env user authorization)
  return (row, user, authorization)

/-- A token that the application encrypted carries what it was made from. -/
theorem AuthorizationLoginStrategy.decryptToken_encrypt {app : App} {body authorization : Json}
    (hj : authorization.noNumber = true)
    (h : body.get? "token" = some (.str (app.encrypt authorization.stringify))) :
    decryptToken app body = .ok authorization := by
  simp only [decryptToken, h, App.decrypt_encrypt, Json.parse_stringify hj]

/-! ## What a validated authorization request is -/

/-- The content of a validated `AuthorizationDto`. -/
structure AuthorizationDto.Valid (app : App) (st : Store) (o : Json) : Prop where
  grant_type : ∃ g : GrantTypes, g ≠ .ImplicitPassword ∧ o.get? "grant_type" = some (.str g.text)
  client_id : ∃ s, o.get? "client_id" = some (.str s) ∧ app.isUUID s = true ∧
    ∃ c ∈ st.clients, Uuid.ofText? s = some c.id ∧ c.is_revoked = false ∧
      o.get? "grant_type" = some (.str c.grant_type.text)
  pkce : o.get? "grant_type" = some (.str GrantTypes.PKCE.text) →
    (∃ s, o.get? "code_challenge" = some (.str s) ∧ s ≠ "") ∧
      ∃ s, o.get? "algorithm" = some (.str s) ∧ s ∈ ["sha512", "sha256"]
  redirect_url : ∃ s, o.get? "redirect_url" = some (.str s) ∧ app.isURL s = true

/-- `ClientIdExistsValidator` passes a text iff it is the id of an active client that is
    registered for the object's grant type. -/
theorem ClientIdExistsValidator.validate_eq_true {st : Store} {o : Json} {s : String}
    {g : GrantTypes} (hs : s ≠ "") (hg : o.get? "grant_type" = some (.str g.text)) :
    ClientIdExistsValidator.validate st o (some (.str s)) = .ok true ↔
      ∃ c ∈ st.clients, Uuid.ofText? s = some c.id ∧ c.is_revoked = false ∧ c.grant_type = g := by
  unfold ClientIdExistsValidator.validate ClientRepoService.find
  have htruthy : Json.truthy (some (.str s)) = true := by simp [Json.truthy, hs]
  have htruthy' : Json.truthy (o.get? "grant_type") = true := by
    simp [hg, Json.truthy, GrantTypes.text_ne_empty]
  simp only [htruthy, htruthy', Bool.not_true, Bool.false_eq_true, if_false]
  cases hid : Uuid.ofText? s with
  | none => simp [Except.map]
  | some id =>
    have hgt : ∀ c : ClientModel, textIs (· = c.grant_type.text) o "grant_type" = true ↔
        c.grant_type = g := by
      intro c
      rw [textIs_iff]
      constructor
      · rintro ⟨t, ht, heq⟩
        cases hg.symm.trans ht
        exact GrantTypes.text_injective (of_decide_eq_true heq).symm
      · rintro rfl
        exact ⟨_, hg, by simp⟩
    simp only [Except.map, Except.ok.injEq, Option.some.injEq]
    constructor
    · intro h
      split at h
      · rename_i c hc
        obtain ⟨hm, rfl⟩ := Table.mem_of_find? hc
        rw [Bool.and_eq_true, hgt] at h
        exact ⟨c, hm, rfl, by simpa using h.1, h.2⟩
      · cases h
    · rintro ⟨c, hm, rfl, hr, hcg⟩
      rw [Table.find?_key hm]
      simp only [hr, (hgt c).mpr hcg, Bool.not_false, Bool.and_true]

theorem AuthorizationDto.valid_of_holds {app : App} {st : Store} {o : Json}
    (h : ∀ p ∈ AuthorizationDto.properties app st, p.Holds o) : AuthorizationDto.Valid app st o := by
  simp only [AuthorizationDto.properties, List.forall_mem_cons, List.not_mem_nil, false_implies,
    implies_true, and_true, Property.Holds] at h
  obtain ⟨hgrant, hclient, hchallenge, halgorithm, hurl⟩ := h
  obtain ⟨hnotin, henum, -⟩ := hgrant trivial
  obtain ⟨t, ht, htm⟩ := Constraint.isEnum_check.mp henum
  obtain ⟨g, -, rfl⟩ := List.mem_map.mp htm
  rw [ht, Constraint.isNotIn_check] at hnotin
  have hg : g ≠ .ImplicitPassword := by rintro rfl; exact hnotin (List.mem_singleton.mpr rfl)
  obtain ⟨hexists, huuid, hne⟩ := hclient trivial
  obtain ⟨s, hs, hsu⟩ := Constraint.isUuid_check.mp huuid
  rw [hs, Constraint.isNotEmpty_check] at hne
  rw [hs] at hexists
  obtain ⟨c, hc, hid, hr, hcg⟩ := (ClientIdExistsValidator.validate_eq_true hne ht).mp hexists
  obtain ⟨hisurl, -⟩ := hurl trivial
  refine ⟨⟨g, hg, ht⟩, ⟨s, hs, hsu, c, hc, hid, hr, hcg ▸ ht⟩, fun hpkce => ?_,
    Constraint.isUrl_check.mp hisurl⟩
  have hcond : hasGrantType [.PKCE] o = true :=
    textIs_iff.mpr ⟨_, hpkce, by decide⟩
  obtain ⟨hcs, hcne⟩ := hchallenge hcond
  obtain ⟨hain, -⟩ := halgorithm hcond
  obtain ⟨c, hc⟩ := Constraint.isString_check.mp hcs
  rw [hc, Constraint.isNotEmpty_check] at hcne
  exact ⟨⟨c, hc, hcne⟩, Constraint.isIn_check.mp hain⟩

/-! ## When a login creates a code -/

/-- The challenge and the algorithm a row is created with. -/
def challengeOf (grantType : GrantTypes) (authorization : Json) : String × String :=
  match grantType with
  | .PKCE => (text authorization "code_challenge", text authorization "algorithm")
  | _ => ("", "")

/-- The row `processLoginAttempt` creates for `user` under `grantType`. -/
structure Minted (env : Env) (user : UserModel) (authorization : Json) (grantType : GrantTypes)
    (row : AuthorizationChallengeModel) : Prop where
  grant_type : authorization.get? "grant_type" = some (.str grantType.text)
  allowed : grantType ≠ .ImplicitPassword
  id : row.id = env.uuid
  user_id : row.user_id = user.id
  client_id : Uuid.ofText? (text authorization "client_id") = some row.client_id
  challenge : row.challenge = (challengeOf grantType authorization).1
  algorithm : row.algorithm = (challengeOf grantType authorization).2

theorem AuthorizationChallengeRepoService.insert_minted {env : Env} {user : UserModel}
    {authorization : Json} {g : GrantTypes} {st st' : Store} {row : AuthorizationChallengeModel}
    (hg : authorization.get? "grant_type" = some (.str g.text)) (hne : g ≠ .ImplicitPassword) :
    insert env user (text authorization "client_id") (challengeOf g authorization).1
        (challengeOf g authorization).2 st = (.ok row, st') ↔
      Minted env user authorization g row ∧ env.fails .insertChallenge = false ∧
        st.insertChallenge row = .ok st' := by
  rw [insert_eq_ok]
  refine and_congr_left fun _ => ?_
  constructor
  · rintro ⟨id, hid, rfl⟩
    exact ⟨hg, hne, rfl, rfl, hid, rfl, rfl⟩
  · intro h
    exact ⟨row.client_id, h.client_id, by rw [← h.id, ← h.user_id, ← h.challenge, ← h.algorithm]⟩

theorem AuthorizationController.processLoginAttempt_eq_ok {env : Env} {user : UserModel}
    {authorization : Json} {st st' : Store} {row : AuthorizationChallengeModel} :
    processLoginAttempt env user authorization st = (.ok row, st') ↔
      (∃ g, Minted env user authorization g row) ∧ env.fails .insertChallenge = false ∧
        st.insertChallenge row = .ok st' := by
  constructor
  · intro h
    unfold processLoginAttempt at h
    cases hg : (authorization.get? "grant_type").bind Json.str? with
    | none => simp [hg] at h
    | some t =>
      have ht : authorization.get? "grant_type" = some (.str t) := by
        obtain ⟨j, hj, hs⟩ := Option.bind_eq_some_iff.mp hg
        cases j <;> simp [Json.str?] at hs
        rw [hj, hs]
      rw [hg, Option.bind_some] at h
      cases hgt : GrantTypes.ofText? t with
      | none => simp [hgt] at h
      | some g =>
        rw [GrantTypes.text_of_ofText? hgt] at ht
        rw [hgt] at h
        cases g with
        | ImplicitPassword => simp at h
        | PKCE =>
          obtain ⟨hm, h⟩ := (AuthorizationChallengeRepoService.insert_minted ht (by decide)).mp h
          exact ⟨⟨_, hm⟩, h⟩
        | AuthorizationCode =>
          obtain ⟨hm, h⟩ := (AuthorizationChallengeRepoService.insert_minted ht (by decide)).mp h
          exact ⟨⟨_, hm⟩, h⟩
  · rintro ⟨⟨g, hm⟩, h⟩
    have hins := (AuthorizationChallengeRepoService.insert_minted hm.grant_type hm.allowed).mpr
      ⟨hm, h⟩
    unfold processLoginAttempt
    rw [hm.grant_type, Option.bind_some, Json.str?, Option.bind_some, GrantTypes.ofText?_text]
    cases g with
    | ImplicitPassword => exact absurd rfl hm.allowed
    | PKCE => exact hins
    | AuthorizationCode => exact hins

/-- The guard lets a login through for `user` with the authorization request of its token. -/
structure LoginGranted (app : App) (body : Option Json) (st : Store) (token payload : Json)
    (user : UserModel) (authorization : Json) : Prop where
  decrypted : AuthorizationLoginStrategy.decryptToken app
    (AuthorizationLoginStrategy.bodyOrEmpty body) = .ok token
  content : AuthorizationLoginStrategy.validateContent app (AuthorizationLoginStrategy.withToken
    (AuthorizationLoginStrategy.bodyOrEmpty body) token) st = .ok payload
  credentials : AuthService.validateForPassword app (text payload "email")
    (text payload "password") st = some user
  carried : authorization = (payload.get? "token").getD .null

theorem AuthorizationLoginStrategy.validate_eq_ok {app : App} {body : Option Json}
    {st st' : Store} {user : UserModel} {authorization : Json} :
    validate app body st = (.ok (user, authorization), st') ↔
      (∃ token payload, LoginGranted app body st token payload user authorization) ∧ st' = st := by
  unfold validate
  simp only [Action.lift_bind_eq_ok, Db.query_bind_eq_ok, Action.read_bind_eq_ok]
  constructor
  · rintro ⟨token, htoken, payload, hcontent, h⟩
    cases hu : AuthService.validateForPassword app (text payload "email")
        (text payload "password") st with
    | none => simp [hu] at h
    | some u =>
      obtain ⟨⟨rfl, rfl⟩, rfl⟩ : (u = user ∧ _ = authorization) ∧ st = st' := by
        simpa [hu] using h
      exact ⟨⟨token, payload, htoken, hcontent, hu, rfl⟩, rfl⟩
  · rintro ⟨⟨token, payload, hg⟩, rfl⟩
    refine ⟨token, hg.decrypted, payload, hg.content, ?_⟩
    rw [hg.credentials, hg.carried]
    rfl

/-- A granted token that has a grant type is one valid authorization request, and the payload
    carries it. -/
theorem LoginGranted.valid {app : App} {body : Option Json} {st : Store} {token payload : Json}
    {user : UserModel} {authorization : Json}
    (h : LoginGranted app body st token payload user authorization) {g : GrantTypes}
    (hg : authorization.get? "grant_type" = some (.str g.text)) :
    AuthorizationDto.Valid app st authorization := by
  obtain ⟨-, -, hprops⟩ := validate_eq_ok.mp h.content
  obtain ⟨-, hnested⟩ := hprops _ (List.mem_cons_self ..) rfl
  have ha := h.carried
  cases htoken : payload.get? "token" with
  | none => rw [ha, htoken] at hg; cases hg
  | some t =>
    rw [htoken] at ha hnested
    cases ha
    cases t with
    | obj ms =>
      have hnested : nestedErrors "token" _ (.obj ms) = .ok ([], []) := hnested
      exact AuthorizationDto.valid_of_holds (nestedErrors_obj.mp hnested)
    | _ => cases hg

/-- Every login that creates a code: the guard granted it, and the row was added. -/
theorem postLogin_eq_ok {app : App} {env : Env} {body : Option Json} {st st' : Store}
    {row : AuthorizationChallengeModel} {user : UserModel} {authorization : Json} :
    postLogin app env body st = (.ok (row, user, authorization), st') ↔
      (∃ token payload, LoginGranted app body st token payload user authorization) ∧
        (∃ g, Minted env user authorization g row) ∧ env.fails .insertChallenge = false ∧
          st.insertChallenge row = .ok st' := by
  unfold postLogin
  simp only [Action.bind_eq_ok, handleRequest_eq_ok, Action.transaction_eq_ok, Prod.exists,
    AuthorizationLoginStrategy.validate_eq_ok, AuthorizationController.processLoginAttempt_eq_ok,
    Action.pure_run, Prod.mk.injEq, Except.ok.injEq]
  constructor
  · rintro ⟨u, a, _, ⟨hg, rfl⟩, r, m, ⟨hm, hf, hi⟩, ⟨rfl, rfl, rfl⟩, rfl⟩
    exact ⟨hg, hm, hf, hi⟩
  · rintro ⟨hg, hm, hf, hi⟩
    exact ⟨user, authorization, st, ⟨hg, rfl⟩, row, st', ⟨hm, hf, hi⟩, ⟨rfl, rfl, rfl⟩, rfl⟩

end NestTemplate
