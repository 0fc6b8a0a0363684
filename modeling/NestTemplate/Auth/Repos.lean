import NestTemplate.Auth.Dtos

/-!
# The repositories and `AuthService`

Look-ups are functions of the store; methods that write are `Db` computations.
A primary key or foreign key that is read back always names a row, so the
records that Sequelize loads with `include` carry the associated rows.

* `consumeCode_eq_ok`, `verifyChallenge_eq_ok`, `verifyWithClientId_eq_ok`: when
  a code is redeemed, and what is left of its row.
* `consumeToken_eq_ok`: what one rotation reads and writes.
* `findForActiveState_eq_some`.
-/

namespace NestTemplate

open Common

/-! ## `UserRepository` -/

namespace UserRepository

def findByEmail (email : String) (st : Store) : Option UserModel :=
  st.users.findOne (·.email = email)

def findOrFail (id : ℕ) (st : Store) : Except Failure UserModel :=
  match st.users.find? id with
  | some user => .ok user
  | none => .error .emptyResult

end UserRepository

/-! ## `ClientRepoService` -/

namespace ClientRepoService

def findForIdAndSecret (id secret : String) (st : Store) : Except Failure (Option ClientModel) :=
  match Uuid.ofText? id with
  | some id => .ok (st.clients.findOne fun c => c.id = id ∧ c.secret = secret)
  | none => .error .database

def create (env : Env) (name : String) (grantType : GrantTypes) : Db ClientModel := do
  let client : ClientModel :=
    { id := env.uuid, name := name, secret := hex env.secretBytes.toList, is_revoked := false,
      grant_type := grantType }
  Action.write (·.insertClient client)
  return client

/-- The method writes `is_revoked: false`. -/
def revoke (client : ClientModel) : Db ClientModel := do
  Action.write fun st =>
    .ok (st.updateClient client.id (fun c => { c with is_revoked := false }) fun _ => rfl)
  return { client with is_revoked := false }

theorem findForIdAndSecret_eq_some {id secret : String} {st : Store} {client : ClientModel} :
    findForIdAndSecret id secret st = .ok (some client) ↔
      client ∈ st.clients ∧ Uuid.ofText? id = some client.id ∧ client.secret = secret := by
  unfold findForIdAndSecret
  split
  · rename_i u hu
    rw [hu]
    constructor
    · intro h
      obtain ⟨hm, hp⟩ := Table.mem_of_findOne (Except.ok.inj h)
      obtain ⟨rfl, rfl⟩ := of_decide_eq_true hp
      exact ⟨hm, rfl, rfl⟩
    · rintro ⟨hm, hid, rfl⟩
      cases hid
      refine congrArg Except.ok (Table.findOne_eq_some hm (by simp) fun d hd hp => ?_)
      exact Table.eq_of_key_eq hd hm (of_decide_eq_true hp).1
  · rename_i hu
    simp [hu]

end ClientRepoService

/-! ## `AccessTokenRepoService` -/

namespace AccessTokenRepoService

/-- `findForActiveState` at the time `now`. -/
def findForActiveState (now : ℕ) (id : String) (st : Store) : Option AccessTokenModel :=
  st.accessTokens.findOne fun a =>
    a.id = id ∧ (∀ t ∈ a.expires_at, now ≤ t) ∧
      ∃ c ∈ st.clients, c.id = a.client_id ∧ c.is_revoked = false

def create (env : Env) (client : ClientModel) (user : Option UserModel) (expiresAt : Option ℕ) :
    Db AccessTokenModel := do
  let accessToken := env.accessToken client.id (user.map (·.id)) expiresAt
  Db.statement env .insertAccessToken (·.insertAccessToken accessToken)
  return accessToken

def createBearerToken (app : App) (env : Env) (accessToken : AccessTokenModel) : Db String :=
  Db.sign app env .signAccessToken accessToken.id

theorem findForActiveState_eq_some {now : ℕ} {id : String} {st : Store} {a : AccessTokenModel} :
    findForActiveState now id st = some a ↔
      a ∈ st.accessTokens ∧ a.id = id ∧ (∀ t ∈ a.expires_at, now ≤ t) ∧
        ∃ c ∈ st.clients, c.id = a.client_id ∧ c.is_revoked = false := by
  constructor
  · intro h
    obtain ⟨hm, hp⟩ := Table.mem_of_findOne h
    exact ⟨hm, of_decide_eq_true hp⟩
  · rintro ⟨hm, hp⟩
    refine Table.findOne_eq_some hm (decide_eq_true hp) fun b hb hb' => ?_
    exact Table.eq_of_key_eq hb hm ((of_decide_eq_true hb').1.trans hp.1.symm)

theorem create_eq_ok {env : Env} {client : ClientModel} {user : Option UserModel}
    {expiresAt : Option ℕ} {st st' : Store} {a : AccessTokenModel} :
    create env client user expiresAt st = (.ok a, st') ↔
      a = env.accessToken client.id (user.map (·.id)) expiresAt ∧
        env.fails .insertAccessToken = false ∧ st.insertAccessToken a = .ok st' := by
  unfold create
  simp only [Action.bind_eq_ok, Db.statement_eq_ok, Action.pure_run, Prod.mk.injEq, Except.ok.injEq]
  constructor
  · rintro ⟨_, m, ⟨hf, hi⟩, rfl, rfl⟩
    exact ⟨rfl, hf, hi⟩
  · rintro ⟨rfl, hf, hi⟩
    exact ⟨(), st', ⟨hf, hi⟩, rfl, rfl⟩

end AccessTokenRepoService

/-! ## `RefreshTokenRepoService` -/

namespace RefreshTokenRepoService

def find (id : String) (st : Store) : Option RefreshTokenModel := st.refreshTokens.find? id

def create (env : Env) (accessToken : AccessTokenModel) (expiresAt : Option ℕ) :
    Db RefreshTokenModel := do
  let refreshToken := env.refreshToken accessToken.id expiresAt
  Db.statement env .insertRefreshToken (·.insertRefreshToken refreshToken)
  return refreshToken

/-- `refreshToken.$get('accessToken')`. -/
def getAccessToken (refreshToken : RefreshTokenModel) (st : Store) :
    Except Failure AccessTokenModel :=
  match st.accessTokens.find? refreshToken.access_token_id with
  | some accessToken => .ok accessToken
  | none => .error (.error "Access token not found")

/-- `currentAccessToken.$get('client')`, read through `client.id`. -/
def getClient (accessToken : AccessTokenModel) (st : Store) : Except Failure ClientModel :=
  match st.clients.find? accessToken.client_id with
  | some client => .ok client
  | none => .error (.error "Cannot read properties of null (reading 'id')")

/-- `currentAccessToken.$get('user')`. -/
def getUser (accessToken : AccessTokenModel) (st : Store) : Option UserModel :=
  accessToken.user_id.bind st.users.find?

/-- `consumeToken`. The new access token is created with the second argument and the new refresh
    token with the third. -/
def consumeToken (env : Env) (refreshToken : RefreshTokenModel)
    (refreshTokenExpiresAt accessTokenExpiresAt : Option ℕ) :
    Db (RefreshTokenModel × AccessTokenModel) := do
  let currentAccessToken ← Db.query (getAccessToken refreshToken)
  let client ← Db.query (getClient currentAccessToken)
  let user ← Action.read (getUser currentAccessToken)
  let newAccessToken ← AccessTokenRepoService.create env client user refreshTokenExpiresAt
  let newRefreshToken ← create env newAccessToken accessTokenExpiresAt
  Db.statement env .destroyAccessToken (.ok <| ·.deleteAccessToken currentAccessToken.id)
  return (newRefreshToken, newAccessToken)

def createBearerToken (app : App) (env : Env) (refreshToken : RefreshTokenModel) : Db String :=
  Db.sign app env .signRefreshToken refreshToken.id

theorem create_eq_ok {env : Env} {accessToken : AccessTokenModel} {expiresAt : Option ℕ}
    {st st' : Store} {r : RefreshTokenModel} :
    create env accessToken expiresAt st = (.ok r, st') ↔
      r = env.refreshToken accessToken.id expiresAt ∧
        env.fails .insertRefreshToken = false ∧ st.insertRefreshToken r = .ok st' := by
  unfold create
  simp only [Action.bind_eq_ok, Db.statement_eq_ok, Action.pure_run, Prod.mk.injEq, Except.ok.injEq]
  constructor
  · rintro ⟨_, m, ⟨hf, hi⟩, rfl, rfl⟩
    exact ⟨rfl, hf, hi⟩
  · rintro ⟨rfl, hf, hi⟩
    exact ⟨(), st', ⟨hf, hi⟩, rfl, rfl⟩

/-- The rows a refresh token leads to are there. -/
theorem getters_ok {st : Store} {r : RefreshTokenModel} (hr : r ∈ st.refreshTokens) :
    ∃ a ∈ st.accessTokens, a.id = r.access_token_id ∧ getAccessToken r st = .ok a ∧
      ∃ c ∈ st.clients, c.id = a.client_id ∧ getClient a st = .ok c ∧
        (getUser a st).map (·.id) = a.user_id := by
  obtain ⟨a, ha, ea⟩ := st.refreshToken_accessToken r hr
  obtain ⟨c, hc, ec⟩ := st.accessToken_client a ha
  refine ⟨a, ha, ea, by rw [getAccessToken, ← ea, Table.find?_key ha], c, hc, ec,
    by rw [getClient, ← ec, Table.find?_key hc], ?_⟩
  unfold getUser
  cases hi : a.user_id with
  | none => rfl
  | some i =>
    obtain ⟨u, hu, eu⟩ := st.accessToken_user a ha i hi
    rw [Option.bind_some, ← eu, Table.find?_key hu, Option.map_some]

/-- One rotation: a new pair for the client and the user of the old access token, which goes
    with its refresh tokens. -/
theorem consumeToken_eq_ok {env : Env} {r : RefreshTokenModel} {refreshExp accessExp : Option ℕ}
    {st st' : Store} {res : RefreshTokenModel × AccessTokenModel} (hr : r ∈ st.refreshTokens) :
    consumeToken env r refreshExp accessExp st = (.ok res, st') ↔
      ∃ a ∈ st.accessTokens, a.id = r.access_token_id ∧
        res.2 = env.accessToken a.client_id a.user_id refreshExp ∧
          res.1 = env.refreshToken res.2.id accessExp ∧
            env.fails .insertAccessToken = false ∧ env.fails .insertRefreshToken = false ∧
              env.fails .destroyAccessToken = false ∧
                ∃ m, st.insertTokens res.2 res.1 = .ok m ∧ st' = m.deleteAccessToken a.id := by
  obtain ⟨a, ha, ea, hgeta, c, hc, ec, hgetc, hgetu⟩ := getters_ok hr
  unfold consumeToken
  simp only [Db.query_bind_eq_ok, hgeta, hgetc, Except.ok.injEq, exists_eq_left',
    Action.read_bind_eq_ok]
  simp only [Action.bind_eq_ok, AccessTokenRepoService.create_eq_ok, create_eq_ok,
    Db.statement_eq_ok, Action.pure_run, Prod.mk.injEq, Except.ok.injEq, hgetu, ec,
    Store.insertTokens]
  constructor
  · rintro ⟨a', m₁, ⟨rfl, hf₁, hi₁⟩, r', m₂, ⟨rfl, hf₂, hi₂⟩, -, _, ⟨hf₃, rfl⟩, rfl, rfl⟩
    exact ⟨a, ha, ea, rfl, rfl, hf₁, hf₂, hf₃, m₂, by rw [hi₁]; exact hi₂, rfl⟩
  · rintro ⟨b, hb, eb, hres₂, hres₁, hf₁, hf₂, hf₃, m, hm, rfl⟩
    obtain rfl : b = a := Table.eq_of_key_eq hb ha (eb.trans ea.symm)
    obtain ⟨r', a'⟩ := res
    dsimp only at hres₁ hres₂ hm
    subst hres₂ hres₁
    split at hm
    · rename_i m₁ hi₁
      exact ⟨_, m₁, ⟨rfl, hf₁, hi₁⟩, _, m, ⟨rfl, hf₂, hm⟩, (), _, ⟨hf₃, rfl⟩, rfl, rfl⟩
    · cases hm

end RefreshTokenRepoService

/-! ## `AuthorizationChallengeRepoService` -/

/-- A challenge with the rows it is loaded with, `include: [UserModel, ClientModel]`. -/
structure ChallengeRecord where
  row : AuthorizationChallengeModel
  user : UserModel
  client : ClientModel

namespace AuthorizationChallengeRepoService

theorem user_isSome {st : Store} {r : AuthorizationChallengeModel} (h : r ∈ st.challenges) :
    (st.users.find? r.user_id).isSome = true := by
  obtain ⟨u, hu, e⟩ := st.challenge_user r h
  rw [← e, Table.find?_key hu]; rfl

theorem client_isSome {st : Store} {r : AuthorizationChallengeModel} (h : r ∈ st.challenges) :
    (st.clients.find? r.client_id).isSome = true := by
  obtain ⟨c, hc, e⟩ := st.challenge_client r h
  rw [← e, Table.find?_key hc]; rfl

/-- `findByPk(code, { rejectOnEmpty: true, include })`. -/
def findByPk (code : String) (st : Store) : Except Failure ChallengeRecord :=
  match Uuid.ofText? code with
  | none => .error .database
  | some id =>
    match h : st.challenges.find? id with
    | none => .error .emptyResult
    | some row =>
      have hr := (Table.mem_of_find? h).1
      .ok ⟨row, (st.users.find? row.user_id).get (user_isSome hr),
        (st.clients.find? row.client_id).get (client_isSome hr)⟩

/-- `consumeCode`. The managed transaction ends with the method. -/
def consumeCode (env : Env) (code : String) : Db ChallengeRecord :=
  Action.transaction do
    let challengeRecord ← Db.query (findByPk code)
    Db.statement env .destroyChallenge (.ok <| ·.deleteChallenge challengeRecord.row.id)
    return challengeRecord

/-- The bytes of a challenge: `Buffer.from` after the two `replace` and the padding. -/
def challengeBuf (challenge : String) : Bytes :=
  let standard := challenge.toList.map fun c => if c = '-' then '+' else if c = '_' then '/' else c
  base64Decode (String.ofList (standard ++ ['=', '='].drop ((utf16Length challenge + 2) % 4)))

def compareChallengeAndVerifier (app : App) (challenge verifier algorithm : String) :
    Except Failure Bool :=
  match app.createHash algorithm with
  | some hash => .ok (challengeBuf challenge = hash (utf8 verifier))
  | none => .error (.error "Digest method not supported")

def verifyChallenge (app : App) (env : Env) (code codeVerifier : String) :
    Db (Option ChallengeRecord) := do
  let result ← consumeCode env code
  let verified ← Action.lift
    (compareChallengeAndVerifier app result.row.challenge codeVerifier result.row.algorithm)
  return if verified then some result else none

def verifyWithClientId (env : Env) (code clientId : String) : Db (Option ChallengeRecord) := do
  let result ← consumeCode env code
  return if result.client.id.toString = clientId then some result else none

/-- The insert shared by the two `create` methods; the id is the column's default. -/
def insert (env : Env) (user : UserModel) (client challenge algorithm : String) :
    Db AuthorizationChallengeModel := do
  let client_id ← Action.lift ((Uuid.ofText? client).elim (.error .database) .ok)
  let row : AuthorizationChallengeModel :=
    { id := env.uuid, user_id := user.id, client_id, challenge, algorithm }
  Db.statement env .insertChallenge (·.insertChallenge row)
  return row

def createWithPkceCodeChallenge (env : Env) (user : UserModel)
    (client challenge algorithm : String) : Db AuthorizationChallengeModel :=
  insert env user client challenge algorithm

def createForAuthorizationCode (env : Env) (user : UserModel) (client : String) :
    Db AuthorizationChallengeModel :=
  insert env user client "" ""

/-- A code that is found is a row of the table, with its user and its client. -/
theorem findByPk_eq_ok {code : String} {st : Store} {record : ChallengeRecord} :
    findByPk code st = .ok record ↔
      Uuid.ofText? code = some record.row.id ∧ record.row ∈ st.challenges ∧
        (record.user ∈ st.users ∧ record.user.id = record.row.user_id) ∧
          record.client ∈ st.clients ∧ record.client.id = record.row.client_id := by
  unfold findByPk
  split
  · rename_i hc; simp [hc]
  · rename_i id hc
    rw [hc]
    split
    · rename_i hn
      simp only [reduceCtorEq, false_iff]
      rintro ⟨hid, hr, -⟩
      cases hid
      exact Table.find?_eq_none.mp hn _ hr rfl
    · rename_i row h
      obtain ⟨hr, rfl⟩ := Table.mem_of_find? h
      have hu := Table.mem_of_find? (Option.some_get (user_isSome hr)).symm
      have hcl := Table.mem_of_find? (Option.some_get (client_isSome hr)).symm
      constructor
      · intro h
        cases h
        exact ⟨rfl, hr, hu, hcl⟩
      · rintro ⟨hid, hr', hu', hcl'⟩
        obtain ⟨row', user', client'⟩ := record
        obtain rfl : row = row' := Table.eq_of_key_eq hr hr' (by simpa using hid)
        have hue := Table.eq_of_key_eq hu.1 hu'.1 (hu.2.trans hu'.2.symm)
        have hce := Table.eq_of_key_eq hcl.1 hcl'.1 (hcl.2.trans hcl'.2.symm)
        exact congrArg₂ (fun u c => Except.ok (ChallengeRecord.mk row u c)) hue hce

theorem consumeCode_eq_ok {env : Env} {code : String} {st st' : Store} {record : ChallengeRecord} :
    consumeCode env code st = (.ok record, st') ↔
      findByPk code st = .ok record ∧ env.fails .destroyChallenge = false ∧
        st' = st.deleteChallenge record.row.id := by
  unfold consumeCode
  simp only [Action.transaction_eq_ok, Action.bind_eq_ok, Db.query_run, Db.statement_eq_ok,
    Action.pure_run, Prod.mk.injEq, Except.ok.injEq]
  constructor
  · rintro ⟨r, _, ⟨hr, rfl⟩, _, _, ⟨hf, rfl⟩, rfl, rfl⟩
    exact ⟨hr, hf, rfl⟩
  · rintro ⟨hr, hf, rfl⟩
    exact ⟨record, st, ⟨hr, rfl⟩, (), _, ⟨hf, rfl⟩, rfl, rfl⟩

theorem verifyChallenge_eq_ok {app : App} {env : Env} {code codeVerifier : String}
    {st st' : Store} {record : ChallengeRecord} :
    verifyChallenge app env code codeVerifier st = (.ok (some record), st') ↔
      consumeCode env code st = (.ok record, st') ∧
        compareChallengeAndVerifier app record.row.challenge codeVerifier record.row.algorithm =
          .ok true := by
  unfold verifyChallenge
  simp only [Action.bind_eq_ok, Action.lift_run, Action.pure_run, Prod.mk.injEq, Except.ok.injEq]
  constructor
  · rintro ⟨r, m, hr, b, _, ⟨hb, rfl⟩, hsome, rfl⟩
    cases b <;> simp at hsome
    subst hsome
    exact ⟨hr, hb⟩
  · rintro ⟨hr, hb⟩
    exact ⟨record, st', hr, true, st', ⟨hb, rfl⟩, rfl, rfl⟩

theorem verifyWithClientId_eq_ok {env : Env} {code clientId : String} {st st' : Store}
    {record : ChallengeRecord} :
    verifyWithClientId env code clientId st = (.ok (some record), st') ↔
      consumeCode env code st = (.ok record, st') ∧ record.client.id.toString = clientId := by
  unfold verifyWithClientId
  simp only [Action.bind_eq_ok, Action.pure_run, Prod.mk.injEq, Except.ok.injEq]
  constructor
  · rintro ⟨r, m, hr, hsome, rfl⟩
    split at hsome
    · cases hsome
      exact ⟨hr, ‹_›⟩
    · cases hsome
  · rintro ⟨hr, hid⟩
    exact ⟨record, st', hr, by rw [if_pos hid], rfl⟩

theorem insert_eq_ok {env : Env} {user : UserModel} {client challenge algorithm : String}
    {st st' : Store} {row : AuthorizationChallengeModel} :
    insert env user client challenge algorithm st = (.ok row, st') ↔
      (∃ id, Uuid.ofText? client = some id ∧
        row = { id := env.uuid, user_id := user.id, client_id := id, challenge, algorithm }) ∧
        env.fails .insertChallenge = false ∧ st.insertChallenge row = .ok st' := by
  unfold insert
  simp only [Action.bind_eq_ok, Action.lift_run, Db.statement_eq_ok, Action.pure_run,
    Prod.mk.injEq, Except.ok.injEq]
  constructor
  · rintro ⟨id, _, ⟨hid, rfl⟩, _, _, ⟨hf, hi⟩, rfl, rfl⟩
    cases h : Uuid.ofText? client with
    | none => rw [h] at hid; cases hid
    | some u =>
      rw [h] at hid
      cases hid
      exact ⟨⟨_, rfl, rfl⟩, hf, hi⟩
  · rintro ⟨⟨id, hid, rfl⟩, hf, hi⟩
    exact ⟨id, st, ⟨by rw [hid]; rfl, rfl⟩, (), st', ⟨hf, hi⟩, rfl, rfl⟩

end AuthorizationChallengeRepoService

/-! ## `AuthService` -/

namespace AuthService

def validateForPassword (app : App) (email password : String) (st : Store) : Option UserModel :=
  match UserRepository.findByEmail email st with
  | none => none
  | some user =>
    match user.password with
    | none => none
    | some hash => if hash ≠ "" ∧ app.compare password hash then some user else none

def getLoggedInUser (userId : ℕ) (st : Store) : Except Failure UserModel :=
  UserRepository.findOrFail userId st

/-- `jwtService.verifyAsync`. -/
def decode (app : App) (token : String) : Except Failure String :=
  (app.verifyAsync token).elim (.error .jsonWebToken) .ok

def findUserByToken (app : App) (now : ℕ) (bearerToken : String) (st : Store) :
    Except Failure (Option UserModel) := do
  let decodedId ← decode app bearerToken
  match AccessTokenRepoService.findForActiveState now decodedId st with
  | none => return none
  | some accessToken =>
    match accessToken.user_id with
    | none => return none
    | some userId => return some (← getLoggedInUser userId st)

def findRefreshToken (app : App) (token : String) (st : Store) :
    Except Failure (Option RefreshTokenModel) := do
  let decodedId ← decode app token
  return RefreshTokenRepoService.find decodedId st

theorem findByEmail_of_validateForPassword {app : App} {email password : String} {st : Store}
    {user : UserModel} (h : validateForPassword app email password st = some user) :
    UserRepository.findByEmail email st = some user := by
  unfold validateForPassword at h
  split at h
  · cases h
  · rename_i u hu
    split at h
    · cases h
    · split at h
      · cases h
        exact hu
      · cases h

theorem mem_of_validateForPassword {app : App} {email password : String} {st : Store}
    {user : UserModel} (h : validateForPassword app email password st = some user) :
    user ∈ st.users :=
  (Table.mem_of_findOne (findByEmail_of_validateForPassword h)).1

theorem email_of_validateForPassword {app : App} {email password : String} {st : Store}
    {user : UserModel} (h : validateForPassword app email password st = some user) :
    user.email = email := by
  simpa using (Table.mem_of_findOne (findByEmail_of_validateForPassword h)).2

theorem findRefreshToken_eq_some {app : App} {token : String} {st : Store}
    {r : RefreshTokenModel} :
    findRefreshToken app token st = .ok (some r) ↔
      r ∈ st.refreshTokens ∧ app.verifyAsync token = some r.id := by
  unfold findRefreshToken decode
  cases h : app.verifyAsync token with
  | none => simp [bind, Except.bind]
  | some id =>
    simp only [Option.elim, bind, Except.bind, pure, Except.pure, Except.ok.injEq,
      RefreshTokenRepoService.find, Table.find?_eq_some, Option.some.injEq]
    exact and_congr_right fun _ => eq_comm

end AuthService

end NestTemplate
