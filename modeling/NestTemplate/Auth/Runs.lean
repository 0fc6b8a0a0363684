import NestTemplate.Auth.Authorization
import NestTemplate.Common.Run

/-!
# Runs of the application

A run is a sequence of requests and of changes to clients and users, each
performed on the store the one before it left. Requests run alone here; what
interleaving adds is the subject of the `Concurrent` modules.

* `keeps_validate`, `of_postToken_error`: what holds across the guard of `/oauth/token`, and
  across a request that fails; `OnlyChallenges` is what these and a login leave alone.
* `perform_tokens`: no token is added but the pairs of successful
  `POST /oauth/token` and `POST /oauth/refresh` requests; `run_accessTokens` and
  `run_refreshTokens` say so of whole runs.
-/

namespace NestTemplate

open Common

/-- One step of a run. -/
inductive Op where
  | createUser (user : UserModel)
  | updateUser (id : ℕ) (email : String) (password : Option String)
  | deleteUser (id : ℕ)
  | createClient (env : Env) (name : String) (grantType : GrantTypes)
  | updateClient (id : Uuid) (name secret : String) (is_revoked : Bool)
  | revokeClient (id : Uuid)
  | deleteClient (id : Uuid)
  | login (env : Env) (body : Option Json)
  | token (env : Env) (req : Request)
  | refresh (env : Env) (req : Request)

namespace Op

/-- The store a step leaves. A client's `grant_type` never changes after its creation. -/
def perform (app : App) (op : Op) (st : Store) : Store :=
  match op with
  | createUser user => (Action.write (·.insertUser user) st).2
  | updateUser id email password => (Action.write (·.updateUser id email password) st).2
  | deleteUser id => st.deleteUser id
  | createClient env name grantType => (ClientRepoService.create env name grantType st).2
  | updateClient id name secret is_revoked =>
    st.updateClient id (fun c => { c with name, secret, is_revoked }) fun _ => rfl
  | revokeClient id =>
    match st.clients.find? id with
    | some client => (ClientRepoService.revoke client st).2
    | none => st
  | deleteClient id => st.deleteClient id
  | login env body => (postLogin app env body st).2
  | token env req => (postToken app env req st).2
  | refresh env req => (postRefresh app env req st).2

end Op

/-- One step of the application. -/
def Step (app : App) (st : Store) (op : Op) (st' : Store) : Prop := st' = op.perform app st

/-- The stores of all runs from the migrated database. -/
def Reachable (app : App) (st : Store) : Prop := ∃ ops, Run (Step app) Store.empty ops st

/-- Every sequence of steps is a run. -/
theorem Step.total (app : App) (st : Store) (ops : List Op) : ∃ st', Run (Step app) st ops st' := by
  induction ops generalizing st with
  | nil => exact ⟨st, .nil st⟩
  | cons op ops ih =>
    obtain ⟨st', h⟩ := ih (op.perform app st)
    exact ⟨st', .cons rfl h⟩

/-! ## What the requests leave alone -/

section Guard

variable {R : Store → Store → Prop} (refl : ∀ s, R s s)
  (trans : ∀ s t u, R s t → R t u → R s u) (hdelete : ∀ s id, R s (s.deleteChallenge id))

theorem keeps_query (refl : ∀ s, R s s) {α : Type} (f : Store → Except Failure α) :
    Action.Keeps R (Db.query f) := refl

theorem keeps_statement (refl : ∀ s, R s s) {env : Env} {e : Effect}
    {f : Store → Except Failure Store} (hf : ∀ s t, f s = .ok t → R s t) :
    Action.Keeps R (Db.statement env e f) :=
  Action.Keeps.write refl fun s t h => by
    split at h
    · cases h
    · exact hf s t h

include refl trans hdelete

theorem keeps_consumeCode (env : Env) (code : String) :
    Action.Keeps R (AuthorizationChallengeRepoService.consumeCode env code) := by
  refine .transaction refl (.bind trans (keeps_query refl _) fun record => ?_)
  refine .bind trans (keeps_statement refl fun s t h => ?_) fun _ => .pure refl _
  cases h
  exact hdelete s _

/-- The guard of `/oauth/token` writes nothing but the delete of a challenge. -/
theorem keeps_validate (app : App) (env : Env) (req : Request) :
    Action.Keeps R (AccessTokenService.validate app env req) := by
  refine .bind trans (.guard refl _ _) fun _ => .bind trans (.lift refl _) fun payload => ?_
  have hcode := keeps_consumeCode refl trans hdelete env (text payload "code")
  cases GrantTypes.ofText? (text payload "grant_type") with
  | none => exact .fail refl _
  | some g =>
    cases g with
    | ImplicitPassword =>
      refine .bind trans (keeps_query refl _) fun client => ?_
      cases client with
      | none => exact .fail refl _
      | some client =>
        refine .bind trans (.read refl _) fun user => ?_
        cases user with
        | none => exact .fail refl _
        | some user => exact .pure refl _
    | PKCE =>
      refine .bind trans (.bind trans hcode fun _ =>
        .bind trans (.lift refl _) fun _ => .pure refl _) fun result => ?_
      cases result with
      | none => exact .fail refl _
      | some result => exact .pure refl _
    | AuthorizationCode =>
      refine .bind trans (.bind trans hcode fun _ => .pure refl _) fun result => ?_
      cases result with
      | none => exact .fail refl _
      | some result => exact .pure refl _

/-- So does a failed `POST /oauth/token`. -/
theorem of_postToken_error {app : App} {env : Env} {req : Request} {st st' : Store} {e : Failure}
    (h : postToken app env req st = (.error e, st')) : R st st' := by
  have hguard := Keeps.handleRequest (keeps_validate refl trans hdelete app env req) st
  rcases Action.bind_eq_error.mp h with h | ⟨user, m, h, ht⟩
  · rwa [h] at hguard
  · rw [Action.transaction_error ht]
    rwa [h] at hguard

end Guard

/-- All tables but the challenges are the same. -/
structure OnlyChallenges (st st' : Store) : Prop where
  users : st'.users = st.users
  clients : st'.clients = st.clients
  accessTokens : st'.accessTokens = st.accessTokens
  refreshTokens : st'.refreshTokens = st.refreshTokens

namespace OnlyChallenges

theorem refl (st : Store) : OnlyChallenges st st := ⟨rfl, rfl, rfl, rfl⟩

theorem trans (r s t : Store) (h : OnlyChallenges r s) (h' : OnlyChallenges s t) :
    OnlyChallenges r t :=
  ⟨h'.users.trans h.users, h'.clients.trans h.clients, h'.accessTokens.trans h.accessTokens,
    h'.refreshTokens.trans h.refreshTokens⟩

/-- A failed `POST /oauth/token` may have consumed a code, and nothing else. -/
theorem of_postToken_error {app : App} {env : Env} {req : Request} {st st' : Store} {e : Failure}
    (h : postToken app env req st = (.error e, st')) : OnlyChallenges st st' :=
  NestTemplate.of_postToken_error refl trans (fun _ _ => ⟨by simp, by simp, by simp, by simp⟩) h

theorem keeps_insert (env : Env) (user : UserModel) (client challenge algorithm : String) :
    Action.Keeps OnlyChallenges
      (AuthorizationChallengeRepoService.insert env user client challenge algorithm) := by
  refine .bind trans (.lift refl _) fun id => .bind trans (keeps_statement refl fun s t h => ?_)
    fun _ => .pure refl _
  obtain ⟨-, hu, hc, ha, hr⟩ := Store.insertChallenge_eq_ok h
  exact ⟨hu, hc, ha, hr⟩

/-- A login writes to the challenges only. -/
theorem keeps_postLogin (app : App) (env : Env) (body : Option Json) :
    Action.Keeps OnlyChallenges (postLogin app env body) := by
  refine .bind trans (Keeps.handleRequest ?_) fun (user, authorization) =>
    .bind trans (.transaction refl ?_) fun _ => .pure refl _
  · refine .bind trans (.lift refl _) fun token => .bind trans (keeps_query refl _) fun _ =>
      .bind trans (.read refl _) fun user => ?_
    cases user with
    | none => exact .fail refl _
    | some user => exact .pure refl _
  · unfold AuthorizationController.processLoginAttempt
    split
    · exact keeps_insert env user _ _ _
    · exact keeps_insert env user _ _ _
    · exact .fail refl _

end OnlyChallenges

/-- A failed `POST /oauth/refresh` changes nothing. -/
theorem postRefresh_error {app : App} {env : Env} {req : Request} {st st' : Store} {e : Failure}
    (h : postRefresh app env req st = (.error e, st')) : st' = st := by
  have refl : ∀ s : Store, s = s := fun _ => rfl
  have trans : ∀ r s t : Store, r = s → s = t → r = t := fun _ _ _ => Eq.trans
  have hkeep : Action.Keeps Eq (RefreshTokenService.validate app env req) := by
    refine .bind trans (.guard refl _ _) fun _ => .bind trans (.lift refl _) fun payload =>
      .bind trans refl fun client => .bind trans (.guard refl _ _) fun _ =>
        .bind trans refl fun found => ?_
    cases found with
    | none => exact .fail refl _
    | some r => exact .bind trans (.guard refl _ _) fun _ => .pure refl _
  have hguard := Keeps.handleRequest hkeep st
  rcases Action.bind_eq_error.mp h with h | ⟨current, m, h, ht⟩
  · rw [h] at hguard
    exact hguard.symm
  · rw [Action.transaction_error ht]
    rw [h] at hguard
    exact hguard.symm

/-- A failed login changes nothing. -/
theorem postLogin_error {app : App} {env : Env} {body : Option Json} {st st' : Store} {e : Failure}
    (h : postLogin app env body st = (.error e, st')) : st' = st := by
  have refl : ∀ s : Store, s = s := fun _ => rfl
  have trans : ∀ r s t : Store, r = s → s = t → r = t := fun _ _ _ => Eq.trans
  have hkeep : Action.Keeps Eq (AuthorizationLoginStrategy.validate app body) := by
    refine .bind trans (.lift refl _) fun token => .bind trans (keeps_query refl _) fun _ =>
      .bind trans (.read refl _) fun user => ?_
    cases user with
    | none => exact .fail refl _
    | some user => exact .pure refl _
  have hguard := Keeps.handleRequest hkeep st
  rcases Action.bind_eq_error.mp h with h | ⟨login, m, h, ht⟩
  · rw [h] at hguard
    exact hguard.symm
  · rw [h] at hguard
    rcases Action.bind_eq_error.mp ht with ht | ⟨row, m', -, ht⟩
    · exact (Action.transaction_error ht).trans hguard.symm
    · cases ht

/-! ## What a step adds to the tokens -/

section Perform

variable {app : App} {op : Op} {st : Store}

/-- The pair a step adds to the tokens, and the response that carries it. -/
inductive Issues (app : App) (st : Store) :
    Op → Env → AccessTokenModel → RefreshTokenModel → BearerTokenResult → Store → Prop
  | token {env : Env} {req : Request} {payload : Json} {grantType : GrantTypes}
      {user : UserModel} {client : ClientModel} {m st' : Store} {a : AccessTokenModel}
      {r : RefreshTokenModel} (hworks : env.Works)
      (hgranted : TokenGranted app env req st payload grantType user client m)
      (ha : a = env.accessToken client.id (some user.id)
        (OauthController.accessTokenExpiration app env))
      (hr : r = env.refreshToken a.id (OauthController.refreshTokenExpiration app env))
      (hinsert : m.insertTokens a r = .ok st') :
      Issues app st (.token env req) env a r (OauthController.bearer app env a r) st'
  | refresh {env : Env} {req : Request} {payload : Json} {client : ClientModel}
      {current : RefreshTokenModel} {old : AccessTokenModel} {m : Store} {a : AccessTokenModel}
      {r : RefreshTokenModel} (hworks : env.Works) (hdestroy : env.fails .destroyAccessToken = false)
      (hgranted : RefreshGranted app env req st payload client current)
      (hold : old ∈ st.accessTokens) (hcurrent : old.id = current.access_token_id)
      (ha : a = env.accessToken old.client_id old.user_id
        (OauthController.refreshTokenExpiration app env))
      (hr : r = env.refreshToken a.id (OauthController.accessTokenExpiration app env))
      (hinsert : st.insertTokens a r = .ok m) :
      Issues app st (.refresh env req) env a r (OauthController.bearer app env a r)
        (m.deleteAccessToken old.id)

/-- The response of a token request, with what the request got from outside. -/
def Op.response (app : App) (op : Op) (st : Store) : Option (Env × BearerTokenResult) :=
  match op with
  | token env req => ((postToken app env req st).1.toOption).map (env, ·)
  | refresh env req => ((postRefresh app env req st).1.toOption).map (env, ·)
  | _ => none

/-- A step responds iff it issues a pair of tokens. -/
theorem Op.response_eq_some {env : Env} {res : BearerTokenResult} :
    op.response app st = some (env, res) ↔ ∃ a r st', Issues app st op env a r res st' := by
  constructor
  · intro h
    cases op with
    | token env' req =>
      obtain ⟨res', hres, rfl, rfl⟩ : ∃ res', _ = some res' ∧ env' = env ∧ res' = res := by
        simpa [Op.response] using h
      rcases hp : postToken app env' req st with ⟨_ | res', st'⟩ <;> rw [hp] at hres <;> cases hres
      obtain ⟨hw, payload, g, user, client, m, hg, a, r, ha, hr, hi, rfl⟩ := postToken_eq_ok.mp hp
      exact ⟨a, r, st', .token hw hg ha hr hi⟩
    | refresh env' req =>
      obtain ⟨res', hres, rfl, rfl⟩ : ∃ res', _ = some res' ∧ env' = env ∧ res' = res := by
        simpa [Op.response] using h
      rcases hp : postRefresh app env' req st with ⟨_ | res', st'⟩ <;> rw [hp] at hres <;>
        cases hres
      obtain ⟨hw, hf, payload, client, current, hg, old, ho, eo, a, r, ha, hr, ⟨m, hi, rfl⟩, rfl⟩ :=
        postRefresh_eq_ok.mp hp
      exact ⟨a, r, _, .refresh hw hf hg ho eo ha hr hi⟩
    | _ => cases h
  · rintro ⟨a, r, st', h⟩
    cases h with
    | token hw hg ha hr hi =>
      rw [Op.response, postToken_eq_ok.mpr ⟨hw, _, _, _, _, _, hg, _, _, ha, hr, hi, rfl⟩]
      rfl
    | refresh hw hf hg ho eo ha hr hi =>
      rw [Op.response, postRefresh_eq_ok.mpr ⟨hw, hf, _, _, _, hg, _, ho, eo, _, _, ha, hr,
        ⟨_, hi, rfl⟩, rfl⟩]
      rfl

/-- The pair of a response is in the tables after the step. -/
theorem Issues.mem {env : Env} {a : AccessTokenModel} {r : RefreshTokenModel}
    {res : BearerTokenResult} {st' : Store} (h : Issues app st op env a r res st') :
    a ∈ st'.accessTokens ∧ r ∈ st'.refreshTokens ∧ op.perform app st = st' := by
  cases h with
  | token hw hg ha hr hi =>
    obtain ⟨hma, hmr, -⟩ := Store.insertTokens_eq_ok hi
    refine ⟨(hma _).mpr (.inl rfl), (hmr _).mpr (.inl rfl), ?_⟩
    rw [Op.perform, postToken_eq_ok.mpr ⟨hw, _, _, _, _, _, hg, _, _, ha, hr, hi, rfl⟩]
  | @refresh _ req _ _ current old m _ _ hw hf hg ho eo ha hr hi =>
    obtain ⟨hma, hmr, -⟩ := Store.insertTokens_eq_ok hi
    have hne : a.id ≠ old.id := by
      obtain ⟨⟨hfresh, -⟩, -⟩ := (Store.insertTokens_isOk (by rw [hr]; rfl)).mp ⟨m, hi⟩
      exact (hfresh old ho).symm
    refine ⟨Store.mem_deleteAccessToken.mpr ⟨(hma _).mpr (.inl rfl), hne⟩,
      Store.mem_deleteAccessToken_refreshTokens.mpr ⟨(hmr _).mpr (.inl rfl), ?_⟩, ?_⟩
    · rw [hr]; exact hne
    · rw [Op.perform, postRefresh_eq_ok.mpr ⟨hw, hf, _, _, _, hg, _, ho, eo, _, _, ha, hr,
        ⟨_, hi, rfl⟩, rfl⟩]

/-- The tokens after a step that issues a pair are the pair and tokens from before. -/
theorem Issues.tokens {env : Env} {a : AccessTokenModel} {r : RefreshTokenModel}
    {res : BearerTokenResult} {st' : Store} (h : Issues app st op env a r res st') :
    (∀ b ∈ st'.accessTokens, b ∈ st.accessTokens ∨ b = a) ∧
      ∀ x ∈ st'.refreshTokens, x ∈ st.refreshTokens ∨ x = r := by
  cases h with
  | token hw hg ha hr hi =>
    obtain ⟨hma, hmr, -⟩ := Store.insertTokens_eq_ok hi
    obtain ⟨-, -, -, -, hat, hrt⟩ := hg.granted.frame
    exact ⟨fun b hb => hat ▸ ((hma b).mp hb).symm, fun x hx => hrt ▸ ((hmr x).mp hx).symm⟩
  | refresh hw hf hg ho eo ha hr hi =>
    obtain ⟨hma, hmr, -⟩ := Store.insertTokens_eq_ok hi
    exact ⟨fun b hb => ((hma b).mp (Store.mem_deleteAccessToken.mp hb).1).symm,
      fun x hx => ((hmr x).mp (Store.mem_deleteAccessToken_refreshTokens.mp hx).1).symm⟩

/-- No token is added. -/
structure NoNewTokens (st st' : Store) : Prop where
  accessTokens : ∀ a ∈ st'.accessTokens, a ∈ st.accessTokens
  refreshTokens : ∀ r ∈ st'.refreshTokens, r ∈ st.refreshTokens

namespace NoNewTokens

theorem of_eq {st st' : Store} (ha : st'.accessTokens = st.accessTokens)
    (hr : st'.refreshTokens = st.refreshTokens) : NoNewTokens st st' :=
  ⟨fun _ h => ha ▸ h, fun _ h => hr ▸ h⟩

theorem trans (r s t : Store) (h : NoNewTokens r s) (h' : NoNewTokens s t) : NoNewTokens r t :=
  ⟨fun a ha => h.accessTokens a (h'.accessTokens a ha),
    fun x hx => h.refreshTokens x (h'.refreshTokens x hx)⟩

theorem keeps_write {f : Store → Except Failure Store}
    (hf : ∀ s t, f s = .ok t → t.accessTokens = s.accessTokens ∧ t.refreshTokens = s.refreshTokens) :
    Action.Keeps NoNewTokens (Action.write f) :=
  .write (fun _ => .of_eq rfl rfl) fun s t h => .of_eq (hf s t h).1 (hf s t h).2

theorem of_retain (pu : UserModel → Bool) (pc : ClientModel → Bool)
    (pr : AuthorizationChallengeModel → Bool) (pa : AccessTokenModel → Bool) :
    NoNewTokens st (st.retain pu pc pr pa) :=
  ⟨fun _ h => (Store.mem_accessTokens_retain.mp h).1,
    fun _ h => (Store.mem_refreshTokens_retain.mp h).1⟩

end NoNewTokens

/-- A step adds no token, or it issues a pair. -/
theorem perform_tokens : NoNewTokens st (op.perform app st) ∨
    ∃ env a r res, Issues app st op env a r res (op.perform app st) := by
  cases op with
  | createUser user =>
    refine .inl (NoNewTokens.keeps_write (fun s t hi => ?_) st)
    exact (Store.insertUser_eq_ok hi).2.2.2
  | updateUser id email password =>
    refine .inl (NoNewTokens.keeps_write (fun s t hi => ?_) st)
    exact (Store.updateUser_eq_ok hi).2.2
  | createClient env name grantType =>
    have hk : Action.Keeps NoNewTokens (ClientRepoService.create env name grantType) :=
      .bind NoNewTokens.trans (NoNewTokens.keeps_write
        fun s t hi => (Store.insertClient_eq_ok hi).2.2.2) fun _ =>
          .pure (fun _ => .of_eq rfl rfl) _
    exact .inl (hk st)
  | updateClient id name secret is_revoked => exact .inl (.of_eq rfl rfl)
  | revokeClient id =>
    unfold Op.perform
    dsimp only
    split <;> exact .inl (.of_eq rfl rfl)
  | deleteUser id | deleteClient id => exact .inl (.of_retain ..)
  | login env body =>
    have hk := OnlyChallenges.keeps_postLogin app env body st
    exact .inl (.of_eq hk.accessTokens hk.refreshTokens)
  | token env req =>
    rcases hp : postToken app env req st with ⟨e | res, st'⟩
    · have hk := OnlyChallenges.of_postToken_error hp
      rw [Op.perform, hp]
      exact .inl (.of_eq hk.accessTokens hk.refreshTokens)
    · obtain ⟨hw, payload, g, user, client, m, hg, a, r, ha, hr, hi, rfl⟩ := postToken_eq_ok.mp hp
      rw [Op.perform, hp]
      exact .inr ⟨env, a, r, _, .token hw hg ha hr hi⟩
  | refresh env req =>
    rcases hp : postRefresh app env req st with ⟨e | res, st'⟩
    · rw [Op.perform, hp, postRefresh_error hp]
      exact .inl (.of_eq rfl rfl)
    · obtain ⟨hw, hf, payload, client, current, hg, old, ho, eo, a, r, ha, hr, ⟨m, hi, rfl⟩, rfl⟩ :=
        postRefresh_eq_ok.mp hp
      rw [Op.perform, hp]
      exact .inr ⟨env, a, r, _, .refresh hw hf hg ho eo ha hr hi⟩

/-- A step adds no access token but the one it issues. -/
theorem perform_accessTokens {a : AccessTokenModel} (h : a ∈ (op.perform app st).accessTokens) :
    a ∈ st.accessTokens ∨ ∃ env r res st', Issues app st op env a r res st' := by
  rcases @perform_tokens app op st with hk | ⟨env, a', r, res, hissue⟩
  · exact .inl (hk.accessTokens a h)
  · rcases hissue.tokens.1 a h with hold | rfl
    · exact .inl hold
    · exact .inr ⟨env, r, res, _, hissue⟩

/-- A step adds no refresh token but the one it issues. -/
theorem perform_refreshTokens {r : RefreshTokenModel} (h : r ∈ (op.perform app st).refreshTokens) :
    r ∈ st.refreshTokens ∨ ∃ env a res st', Issues app st op env a r res st' := by
  rcases @perform_tokens app op st with hk | ⟨env, a, r', res, hissue⟩
  · exact .inl (hk.refreshTokens r h)
  · rcases hissue.tokens.2 r h with hold | rfl
    · exact .inl hold
    · exact .inr ⟨env, a, res, _, hissue⟩

/-- Every access token of a run was there at its start or issued by one of its steps. -/
theorem run_accessTokens {st' : Store} {ops : List Op} (hrun : Run (Step app) st ops st')
    {a : AccessTokenModel} (ha : a ∈ st'.accessTokens) :
    a ∈ st.accessTokens ∨ ∃ pre op post m env r res m', ops = pre ++ op :: post ∧
      Run (Step app) st pre m ∧ Issues app m op env a r res m' := by
  have horigin := hrun.origin (A := fun st => a ∈ st.accessTokens)
    (B := fun st op => ∃ env r res st', Issues app st op env a r res st')
    (fun st op st' hstep ha => perform_accessTokens (hstep ▸ ha)) ha
  refine horigin.imp_right ?_
  rintro ⟨pre, op, post, m, hops, hpre, env, r, res, m', hissue⟩
  exact ⟨pre, op, post, m, env, r, res, m', hops, hpre, hissue⟩

/-- Every refresh token of a run was there at its start or issued by one of its steps. -/
theorem run_refreshTokens {st' : Store} {ops : List Op} (hrun : Run (Step app) st ops st')
    {r : RefreshTokenModel} (hr : r ∈ st'.refreshTokens) :
    r ∈ st.refreshTokens ∨ ∃ pre op post m env a res m', ops = pre ++ op :: post ∧
      Run (Step app) st pre m ∧ Issues app m op env a r res m' := by
  have horigin := hrun.origin (A := fun st => r ∈ st.refreshTokens)
    (B := fun st op => ∃ env a res st', Issues app st op env a r res st')
    (fun st op st' hstep hr => perform_refreshTokens (hstep ▸ hr)) hr
  refine horigin.imp_right ?_
  rintro ⟨pre, op, post, m, hops, hpre, env, a, res, m', hissue⟩
  exact ⟨pre, op, post, m, env, a, res, m', hops, hpre, hissue⟩

/-- The requests of a run, as opposed to changes of clients and users. -/
def Op.isRequest : Op → Bool
  | login .. | token .. | refresh .. => true
  | _ => false

/-- Requests leave clients and users alone. -/
theorem perform_request (h : op.isRequest = true) :
    (op.perform app st).clients = st.clients ∧ (op.perform app st).users = st.users := by
  cases op with
  | login env body =>
    have hk := OnlyChallenges.keeps_postLogin app env body st
    exact ⟨hk.clients, hk.users⟩
  | token env req =>
    show (postToken app env req st).2.clients = _ ∧ (postToken app env req st).2.users = _
    rcases hp : postToken app env req st with ⟨e | res, st'⟩
    · have hk := OnlyChallenges.of_postToken_error hp
      exact ⟨hk.clients, hk.users⟩
    · obtain ⟨-, payload, g, user, client, m, hg, a, r, -, -, hi, -⟩ := postToken_eq_ok.mp hp
      obtain ⟨-, -, hu, hc, -, -⟩ := hg.granted.frame
      obtain ⟨-, -, hu', hc', -⟩ := Store.insertTokens_eq_ok hi
      exact ⟨hc'.trans hc, hu'.trans hu⟩
  | refresh env req =>
    show (postRefresh app env req st).2.clients = _ ∧ (postRefresh app env req st).2.users = _
    rcases hp : postRefresh app env req st with ⟨e | res, st'⟩
    · rw [postRefresh_error hp]
      exact ⟨rfl, rfl⟩
    · obtain ⟨-, -, payload, client, current, -, old, -, -, a, r, -, -, ⟨m, hi, rfl⟩, -⟩ :=
        postRefresh_eq_ok.mp hp
      obtain ⟨-, -, hu, hc, -⟩ := Store.insertTokens_eq_ok hi
      exact ⟨(Store.deleteAccessToken_clients m old.id).trans hc,
        (Store.deleteAccessToken_users m old.id).trans hu⟩
  | _ => cases h

end Perform

/-! ## A concrete application -/

/-- The store after a list of steps. -/
def performAll (app : App) (ops : List Op) (st : Store) : Store :=
  ops.foldl (fun st op => op.perform app st) st

theorem run_performAll (app : App) (ops : List Op) (st : Store) :
    Run (Step app) st ops (performAll app ops st) := by
  induction ops generalizing st with
  | nil => exact .nil st
  | cons op ops ih => exact .cons rfl (ih _)

namespace Sample

/-- Where the client waits for its codes. -/
def redirectFront : Url.Front where
  text := "https://client.example/cb".toList
  noQuery := by decide
  noFragment := by decide

/-- An application with one hash value, one password and one redirect URL: the SHA-256 example of
    the PKCE standard and a bcrypt hash of `abc123xyz`. -/
def app : App where
  isEmail s := s = "a@example.com"
  isUUID s := isUuidText s.toList
  isUUID4 s := isUuidText s.toList
  isURL s := "https://".toList.isPrefixOf s.toList
  createHash algorithm := if algorithm = "sha256" then
    some fun _ => [19, 211, 30, 150, 26, 26, 216, 236, 47, 22, 177, 12, 76, 152, 46, 8,
      118, 168, 120, 173, 109, 241, 68, 86, 110, 225, 137, 74, 203, 112, 249, 195]
    else none
  compare password hash := password = "abc123xyz" ∧
    hash = "$2a$12$R9h/cIPz0gi.URNNX3kh2OPST9/PgBkqquzi.Ss7KIUgO2t0jWMUW"
  signAsync id := "eyJhbGciOiJIUzI1NiJ9." ++ id
  verifyAsync token := if "eyJhbGciOiJIUzI1NiJ9.".toList.isPrefixOf token.toList then
    some (String.ofList (token.toList.drop 21)) else none
  keystream i := UInt8.ofNat (7 * i + 3)
  urlFront cs := if cs = redirectFront.text then some redirectFront else none
  passwordPage := ⟨"https://auth.example/oauth/authorization/password".toList, by decide, by decide⟩
  expirationTimeAccessToken := some 1000
  expirationTimeRefreshToken := some 2000

def user : UserModel where
  id := 1
  email := "a@example.com"
  password := some "$2a$12$R9h/cIPz0gi.URNNX3kh2OPST9/PgBkqquzi.Ss7KIUgO2t0jWMUW"

/-- The version 4 UUID whose digits are `d`, but for the version and the variant. -/
def uuidText (d : Char) : List Char :=
  List.replicate 8 d ++ '-' :: List.replicate 4 d ++ '-' :: '4' :: List.replicate 3 d ++
    '-' :: '8' :: List.replicate 3 d ++ '-' :: List.replicate 12 d

/-- So that a numeral is an element of `Fin 16`. -/
instance neZeroSixteen : NeZero 16 := ⟨by decide⟩

/-- The uuid of `uuidText (hexDigit n)`. -/
def uuid (n : Fin 16) : Uuid where
  text := uuidText (hexDigit n)
  wellFormed := by revert n; decide
  canonical := by revert n; decide

/-- A request at the time `now` whose random values are all made of `n`. -/
def env (now : ℕ) (n : Fin 16) : Env where
  now := now
  uuid := uuid n
  accessTokenBytes := Vector.replicate 40 (UInt8.ofNat n)
  refreshTokenBytes := Vector.replicate 40 (UInt8.ofNat n)
  secretBytes := Vector.replicate 40 (UInt8.ofNat n)
  fails _ := false

/-- The secret of the client created with `env now n`. -/
def secret (n : Fin 16) : String := hex (env 0 n).secretBytes.toList

def request (fields : List (String × String)) : Request where
  accept := some "application/json"
  body := some (.obj (fields.map fun (k, v) => (k, .str v)))

/-- The authorization request of the client `n`. -/
def authorization (n : Fin 16) (grantType : GrantTypes) : Json :=
  .obj ([("grant_type", .str grantType.text), ("client_id", .str (uuid n).toString),
    ("redirect_url", .str "https://client.example/cb")] ++
    match grantType with
    | .PKCE => [("code_challenge", .str "E9Melhoa2OwvFrEMTJguCHaoeK1t8URWbuGJSstw-cM"),
        ("algorithm", .str "sha256")]
    | _ => [])

/-- The form of the login page, with the token of an authorization request. -/
def loginBody (authorization : Json) : Json :=
  .obj [("token", .str (app.encrypt authorization.stringify)), ("email", .str "a@example.com"),
    ("password", .str "abc123xyz")]

/-- A user and a client `1` of the grant type. -/
def clientRun (grantType : GrantTypes) : List Op :=
  [.createUser user, .createClient (env 0 1) "client" grantType]

/-- The client `1`. -/
def client (grantType : GrantTypes) : ClientModel where
  id := uuid 1
  name := "client"
  secret := secret 1
  is_revoked := false
  grant_type := grantType

def clientStore (grantType : GrantTypes) : Store := performAll app (clientRun grantType) .empty

/-- The login that makes the code `2` for the two. -/
def login (grantType : GrantTypes) : Op :=
  .login (env 0 2) (some (loginBody (authorization 1 grantType)))

/-- The code `2`. -/
def code (grantType : GrantTypes) : AuthorizationChallengeModel where
  id := uuid 2
  user_id := 1
  client_id := uuid 1
  challenge := (challengeOf grantType (authorization 1 grantType)).1
  algorithm := (challengeOf grantType (authorization 1 grantType)).2

/-- The store after `clientRun` and `login`. -/
def codeStore (grantType : GrantTypes) : Store :=
  match (clientStore grantType).insertChallenge (code grantType) with
  | .ok st => st
  | .error _ => clientStore grantType

theorem postLogin_clientStore {grantType : GrantTypes} (h : grantType ≠ .ImplicitPassword) :
    postLogin app (env 0 2) (some (loginBody (authorization 1 grantType)))
      (clientStore grantType) =
        (.ok (code grantType, user, authorization 1 grantType), codeStore grantType) := by
  refine postLogin_eq_ok.mpr ⟨⟨authorization 1 grantType, .obj (Json.setMember "token"
    (authorization 1 grantType) [("token", .str (app.encrypt (authorization 1 grantType).stringify)),
      ("email", .str "a@example.com"), ("password", .str "abc123xyz")]), ?_, ?_, ?_, ?_⟩,
    ⟨grantType, ?_, h, rfl, rfl, ?_, rfl, rfl⟩, rfl, ?_⟩
  · refine AuthorizationLoginStrategy.decryptToken_encrypt ?_ ?_
    · cases grantType <;> rfl
    · rfl
  · refine validate_of_toOption ?_
    cases grantType
    · exact absurd rfl h
    · decide
    · decide
  · cases grantType <;> decide
  · rfl
  · cases grantType <;> rfl
  · cases grantType <;> decide
  · obtain ⟨st', hst'⟩ : ∃ st', (clientStore grantType).insertChallenge (code grantType) = .ok st' :=
      Store.insertChallenge_isOk.mpr (by cases grantType <;> decide)
    rw [codeStore, hst']

/-- The code is made in a run. -/
theorem run_codeStore {grantType : GrantTypes} (h : grantType ≠ .ImplicitPassword) :
    Run (Step app) .empty (clientRun grantType ++ [login grantType]) (codeStore grantType) := by
  refine (run_performAll app (clientRun grantType) .empty).snoc ?_
  show _ = (postLogin app _ _ (clientStore grantType)).2
  rw [postLogin_clientStore h]

/-- Client `1` asks for tokens with the user's password. -/
def passwordRequest : Request :=
  request [("grant_type", "password"), ("client_id", (uuid 1).toString),
    ("client_secret", secret 1), ("email", "a@example.com"), ("password", "abc123xyz")]

/-- The exchange of the code `2` under a grant type. -/
def exchange (grantType : GrantTypes) (fields : List (String × String)) : Request :=
  request ([("grant_type", grantType.text), ("code", (uuid 2).toString)] ++ fields)

/-- Tokens `3` for the user's password at time 5. -/
def passwordRun : List Op := clientRun .ImplicitPassword ++ [.token (env 5 3) passwordRequest]

/-- The client presents the refresh token `3`. -/
def refreshRequest : Request :=
  request [("client_id", (uuid 1).toString), ("client_secret", secret 1),
    ("refresh_token", app.signAsync (hex (env 5 3).refreshTokenBytes.toList))]

end Sample

end NestTemplate
