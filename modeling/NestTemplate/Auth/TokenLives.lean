import NestTemplate.Auth.BearerAuthentication
import NestTemplate.Auth.RegisteredGrants
import NestTemplate.Auth.TokenPairs

/-!
# How long tokens and codes live

Rows of the token tables and of the challenges are not touched by most steps.
This module says which steps end them, and that nothing else does: no passage of
time, no revocation, no change of a password, no other login.

* `bearer_lives`: a bearer goes on to authenticate its user until a step of the
  run rotates it out or deletes its user or client.
* `code_lives`: a code is there until it is spent, by a request that may fail, or
  its user or client is deleted.
* `codes_single_use`, `refresh_tokens_single_use`: what is spent or rotated is
  never accepted again, whatever comes later.
-/

namespace NestTemplate

open Common

/-! ## Tokens -/

/-- The step takes the access token away. -/
def Op.Ends (app : App) (op : Op) (st : Store) (a : AccessTokenModel) : Prop :=
  match op with
  | .deleteUser id => a.user_id = some id
  | .deleteClient id => a.client_id = id
  | .refresh _ req => (op.response app st).isSome = true ∧
      ∃ current, Presents app req st current ∧ current.access_token_id = a.id
  | _ => False

section Tokens

variable {app : App} {op : Op} {st st' : Store} {a : AccessTokenModel}

/-- A request presents one refresh token at most. -/
theorem Presents.unique {req : Request} {r r' : RefreshTokenModel} (h : Presents app req st r)
    (h' : Presents app req st r') : r = r' := by
  obtain ⟨payload, hbody, hr, hverify⟩ := h
  obtain ⟨payload', hbody', hr', hverify'⟩ := h'
  cases hbody.symm.trans hbody'
  exact Table.eq_of_key_eq hr hr' (Option.some.inj (hverify.symm.trans hverify'))

theorem mem_perform_iff (ha : a ∈ st.accessTokens) :
    a ∈ (op.perform app st).accessTokens ↔ ¬ op.Ends app st a := by
  cases token_change app op st with
  | same hu hc hres h =>
    rw [h.accessTokens]
    refine iff_of_true ha fun hends => ?_
    cases op with
    | deleteUser id => exact hu id rfl
    | deleteClient id => exact hc id rfl
    | refresh env req =>
      have hsome := hends.1
      rw [hres] at hsome
      cases hsome
    | _ => exact hends
  | issued hguard hissue hclient huser h =>
    exact iff_of_true ((h.accessTokens a).mpr (.inr ha)) id
  | @rotated env req current old new r res _ hissue hpresents hold h =>
    have hnew : a ≠ new := by
      rintro rfl
      exact h.accessToken a ha rfl
    have hsome : ((Op.refresh env req).response app st).isSome = true := by
      rw [Op.response_eq_some.mpr ⟨new, r, _, hissue⟩]
      rfl
    rw [h.accessTokens, or_iff_right hnew, and_iff_right ha]
    refine not_congr ⟨?_, ?_⟩
    · rintro rfl
      exact ⟨hsome, current, hpresents, hold.symm⟩
    · rintro ⟨-, current', hpresents', hid⟩
      cases hpresents.unique hpresents'
      exact Table.eq_of_key_eq ha h.old_mem (hid.symm.trans hold.symm)
  | deletedUser h => exact (h.accessTokens a).trans (and_iff_right ha)
  | deletedClient h => exact (h.accessTokens a).trans (and_iff_right ha)

/-- A run leaves an access token iff none of its steps ends it, provided its id is not made anew. -/
theorem run_mem_iff {ops : List Op} (hrun : Run (Step app) st ops st') (ha : a ∈ st.accessTokens)
    (hid : a.id ∉ issuedIds app st ops) :
    a ∈ st'.accessTokens ↔ Along (Step app) (fun m op => ¬ op.Ends app m a) st ops := by
  induction hrun with
  | nil s => exact iff_of_true ha (Along.of_forall (by simp))
  | @cons s m t op ops hstep hrun ih =>
    subst hstep
    rw [issuedIds, List.mem_append, not_or] at hid
    by_cases hends : op.Ends app s a
    · refine iff_of_false (fun ht => ?_) fun h => h.head hends
      rcases id_mem_issuedIds hrun ht with hm | hissued
      · exact (mem_perform_iff ha).mp hm hends
      · exact hid.2 hissued
    · rw [ih ((mem_perform_iff ha).mpr hends) hid.2]
      constructor
      · rintro h
        refine .cons hends ?_
        rintro _ rfl
        exact h
      · exact fun h => h.tail rfl

/-- **Main theorem**: after any run, the bearer of an access token authenticates somebody iff no
    step of the run ended the token, it has not expired and its client is not revoked; and then it
    authenticates the user it was issued for. -/
theorem bearer_lives (hjwt : app.JwtInverse) {ops : List Op} (hrun : Run (Step app) st ops st')
    (ha : a ∈ st.accessTokens) (hid : a.id ∉ issuedIds app st ops) {i : ℕ}
    (huser : a.user_id = some i) (now : ℕ) :
    ((∃ user, AuthService.findUserByToken app now (app.signAsync a.id) st' = .ok (some user)) ↔
      Along (Step app) (fun m op => ¬ op.Ends app m a) st ops ∧ a.Active st' now) ∧
    ∀ user, AuthService.findUserByToken app now (app.signAsync a.id) st' = .ok (some user) →
      user.id = i := by
  have hverify : app.verifyAsync (app.signAsync a.id) = some a.id := (hjwt _ _).mpr rfl
  -- an access token of the end that goes by the id of `a` is `a`
  have hsame : ∀ b ∈ st'.accessTokens, b.id = a.id → b = a := by
    intro b hb e
    rcases id_mem_issuedIds hrun hb with hb | hissued
    · exact Table.eq_of_key_eq hb ha e
    · exact absurd (e ▸ hissued) hid
  have hread : ∀ user, AuthService.findUserByToken app now (app.signAsync a.id) st' =
      .ok (some user) → a ∈ st'.accessTokens ∧ a.Active st' now ∧ user.id = i := by
    intro user h
    obtain ⟨-, b, hb, hb', hbuser, hactive⟩ := AuthService.findUserByToken_eq_some.mp h
    obtain rfl := hsame b hb (Option.some.inj (hb'.symm.trans hverify))
    exact ⟨hb, hactive, Option.some.inj (hbuser.symm.trans huser)⟩
  refine ⟨⟨?_, ?_⟩, fun user h => (hread user h).2.2⟩
  · rintro ⟨user, h⟩
    obtain ⟨hmem, hactive, -⟩ := hread user h
    exact ⟨(run_mem_iff hrun ha hid).mp hmem, hactive⟩
  · rintro ⟨hlives, hactive⟩
    have hmem := (run_mem_iff hrun ha hid).mpr hlives
    obtain ⟨user, hu, rfl⟩ := st'.accessToken_user a hmem i huser
    exact ⟨user, AuthService.findUserByToken_eq_some.mpr ⟨hu, a, hmem, hverify, huser, hactive⟩⟩

end Tokens

/-- The user loses the password and the client is revoked after the tokens `2` and `3` are issued. -/
def Sample.lockOut : List Op := [.updateUser 1 "a@example.com" none, .revokeClient (Sample.uuid 1)]

/-- The bearer goes on to work. -/
theorem bearer_lives_sample : ∃ user, AuthService.findUserByToken Sample.app 6
    (Sample.app.signAsync Sample.firstToken.id)
    (performAll Sample.app Sample.lockOut (performAll Sample.app Sample.pairRun .empty)) =
      .ok (some user) := by
  refine (bearer_lives Sample.jwtInverse (run_performAll _ _ _) (a := Sample.firstToken) (by decide)
    (by decide) (i := 1) rfl 6).1.mpr ⟨.of_forall ?_, ⟨by decide, by decide⟩⟩
  intro op hop m
  rcases List.mem_pair.mp hop with rfl | rfl <;> exact id

/-! ## Codes -/

/-- The code that a `POST /oauth/token` request presents, where its grant type reads one. -/
def presentedCode (app : App) (req : Request) : Option Uuid :=
  if req.acceptsJson then
    match AccessTokenService.validateContent app req.body with
    | .ok payload =>
      match GrantTypes.ofText? (text payload "grant_type") with
      | some .PKCE | some .AuthorizationCode => Uuid.ofText? (text payload "code")
      | _ => none
    | .error _ => none
  else none

/-- The step takes the challenge away. A request that presents it spends it, also where the
    verifier, the client or a later step is wrong. -/
def Op.Spends (app : App) (op : Op) (r : AuthorizationChallengeModel) : Prop :=
  match op with
  | .deleteUser id => r.user_id = id
  | .deleteClient id => r.client_id = id
  | .token env req => presentedCode app req = some r.id ∧ env.fails .destroyChallenge = false
  | _ => False

/-- The id under which a step may write a challenge. -/
def Op.codeId : Op → Option Uuid
  | .login env _ => some env.uuid
  | _ => none

section Codes

variable {app : App} {env : Env} {req : Request} {op : Op} {st st' : Store}
  {r : AuthorizationChallengeModel}

namespace AuthorizationChallengeRepoService

theorem findByPk_isOk {code : String} (hr : r ∈ st.challenges)
    (hcode : Uuid.ofText? code = some r.id) :
    ∃ record, findByPk code st = .ok record ∧ record.row = r := by
  obtain ⟨u, hu, eu⟩ := st.challenge_user r hr
  obtain ⟨c, hc, ec⟩ := st.challenge_client r hr
  exact ⟨⟨r, u, c⟩, findByPk_eq_ok.mpr ⟨hcode, hr, ⟨hu, eu⟩, hc, ec⟩, rfl⟩

/-- `consumeCode` deletes the row of the code, unless the statement fails. -/
theorem mem_consumeCode {code : String} (hr : r ∈ st.challenges) :
    r ∈ (consumeCode env code st).2.challenges ↔
      ¬ (Uuid.ofText? code = some r.id ∧ env.fails .destroyChallenge = false) := by
  rcases hrun : consumeCode env code st with ⟨e | record, t⟩
  · have hst : t = st := Action.transaction_error hrun
    refine iff_of_true (hst ▸ hr) ?_
    rintro ⟨hcode, hworks⟩
    obtain ⟨record, hfind, -⟩ := findByPk_isOk hr hcode
    have hok := consumeCode_eq_ok.mpr ⟨hfind, hworks, rfl⟩
    rw [hrun] at hok
    cases hok
  · obtain ⟨hfind, hworks, rfl⟩ := consumeCode_eq_ok.mp hrun
    obtain ⟨hcode, -⟩ := findByPk_eq_ok.mp hfind
    rw [Store.mem_deleteChallenge, and_iff_right hr, hcode, and_iff_left hworks,
      Option.some.injEq, eq_comm]

end AuthorizationChallengeRepoService

/-- A sequence whose second part writes nothing leaves what its first part leaves. -/
theorem bind_snd {α β : Type} {x : Db α} {f : α → Db β} (hf : ∀ a t, (f a t).2 = t) (st : Store) :
    ((x >>= f) st).2 = (x st).2 := by
  rw [Action.bind_run]
  rcases x st with ⟨e | a, t⟩
  · rfl
  · exact hf a t

theorem ImplicitPasswordGrantType.validate_snd (app : App) (payload : Json) (st : Store) :
    (ImplicitPasswordGrantType.validate app payload st).2 = st := by
  refine bind_snd (fun client t => ?_) st
  cases client with
  | none => rfl
  | some client =>
    refine bind_snd (fun user t => ?_) t
    cases user <;> rfl

theorem ProofKeyExchangeGrantType.validate_snd (app : App) (env : Env) (payload : Json)
    (st : Store) : (ProofKeyExchangeGrantType.validate app env payload st).2 =
      (AuthorizationChallengeRepoService.consumeCode env (text payload "code") st).2 := by
  refine (bind_snd (fun result t => ?_) st).trans ?_
  · cases result <;> rfl
  · exact bind_snd (fun _ t => bind_snd (fun _ _ => rfl) t) st

theorem AuthorizationCodeGrantType.validate_snd (env : Env) (payload : Json) (st : Store) :
    (AuthorizationCodeGrantType.validate env payload st).2 =
      (AuthorizationChallengeRepoService.consumeCode env (text payload "code") st).2 := by
  refine (bind_snd (fun result t => ?_) st).trans (bind_snd (fun _ _ => rfl) st)
  cases result <;> rfl

theorem mem_validate (hr : r ∈ st.challenges) :
    r ∈ (AccessTokenService.validate app env req st).2.challenges ↔
      ¬ (presentedCode app req = some r.id ∧ env.fails .destroyChallenge = false) := by
  unfold AccessTokenService.validate presentedCode
  cases req.acceptsJson with
  | false => exact iff_of_true hr (by simp)
  | true =>
    rw [Action.bind_of_ok (Action.guard_run true _ st), if_pos rfl]
    cases AccessTokenService.validateContent app req.body with
    | error e => exact iff_of_true hr (by simp)
    | ok payload =>
      rw [Action.bind_of_ok (Action.lift_run (.ok payload) st)]
      cases hg : GrantTypes.ofText? (text payload "grant_type") with
      | none => exact iff_of_true hr (by simp [hg])
      | some g =>
        simp only [hg]
        cases g with
        | ImplicitPassword =>
          refine iff_of_true ?_ (by simp)
          exact (ImplicitPasswordGrantType.validate_snd app payload st).symm ▸ hr
        | PKCE =>
          rw [AccessTokenService.grantTypeMappings, ProofKeyExchangeGrantType.validate_snd]
          exact AuthorizationChallengeRepoService.mem_consumeCode hr
        | AuthorizationCode =>
          rw [AccessTokenService.grantTypeMappings, AuthorizationCodeGrantType.validate_snd]
          exact AuthorizationChallengeRepoService.mem_consumeCode hr

theorem handleRequest_snd {α : Type} (x : Db α) (st : Store) :
    (handleRequest x st).2 = (x st).2 := by
  unfold handleRequest
  split
  · rename_i h
    rw [h]
  · rfl

/-- The handler of `/oauth/token` leaves the challenges as the guard left them. -/
theorem postToken_challenges (app : App) (env : Env) (req : Request) (st : Store) :
    (postToken app env req st).2.challenges =
      (AccessTokenService.validate app env req st).2.challenges := by
  rw [← handleRequest_snd (AccessTokenService.validate app env req)]
  unfold postToken
  rw [Action.bind_run]
  rcases handleRequest (AccessTokenService.validate app env req) st with ⟨e | ⟨user, client⟩, m⟩
  · rfl
  · show (Action.transaction (OauthController.token app env (user, client)) m).2.challenges =
      m.challenges
    rcases ht : Action.transaction (OauthController.token app env (user, client)) m with ⟨e | res, t⟩
    · rw [Action.transaction_error ht]
    · obtain ⟨-, a, x, -, -, hi, -⟩ :=
        OauthController.token_eq_ok.mp (Action.transaction_eq_ok.mp ht)
      exact (Store.insertTokens_eq_ok hi).2.2.2.2

theorem postRefresh_challenges (app : App) (env : Env) (req : Request) (st : Store) :
    (postRefresh app env req st).2.challenges = st.challenges := by
  rcases hp : postRefresh app env req st with ⟨e | res, t⟩
  · rw [postRefresh_error hp]
  · obtain ⟨-, -, payload, client, current, -, old, -, -, a, x, -, -, ⟨m, hi, rfl⟩, -⟩ :=
      postRefresh_eq_ok.mp hp
    exact (Store.deleteAccessToken_challenges m old.id).trans (Store.insertTokens_eq_ok hi).2.2.2.2

theorem mem_deleteUser_challenges {id : ℕ} (hr : r ∈ st.challenges) :
    r ∈ (st.deleteUser id).challenges ↔ r.user_id ≠ id := by
  obtain ⟨u, hu, eu⟩ := st.challenge_user r hr
  obtain ⟨c, hc, ec⟩ := st.challenge_client r hr
  rw [Store.deleteUser, Store.mem_challenges_retain, and_iff_right hr]
  constructor
  · rintro ⟨-, ⟨v, -, hne, ev⟩, -⟩
    exact ev ▸ of_decide_eq_true hne
  · intro hne
    exact ⟨rfl, ⟨u, hu, decide_eq_true (eu ▸ hne), eu⟩, c, hc, rfl, ec⟩

theorem mem_deleteClient_challenges {id : Uuid} (hr : r ∈ st.challenges) :
    r ∈ (st.deleteClient id).challenges ↔ r.client_id ≠ id := by
  obtain ⟨u, hu, eu⟩ := st.challenge_user r hr
  obtain ⟨c, hc, ec⟩ := st.challenge_client r hr
  rw [Store.deleteClient, Store.mem_challenges_retain, and_iff_right hr]
  constructor
  · rintro ⟨-, -, d, -, hne, ed⟩
    exact ed ▸ of_decide_eq_true hne
  · intro hne
    exact ⟨rfl, ⟨u, hu, rfl, eu⟩, c, hc, decide_eq_true (ec ▸ hne), ec⟩

theorem keeps_challenge_write {f : Store → Except Failure Store}
    (hf : ∀ s t, f s = .ok t → t.challenges = s.challenges) (st : Store) :
    (Action.write f st).2.challenges = st.challenges := by
  unfold Action.write
  cases h : f st with
  | ok t => exact hf st t h
  | error e => rfl

/-- A challenge that is there stays iff the step does not spend it. -/
theorem mem_perform_challenges (hr : r ∈ st.challenges) :
    r ∈ (op.perform app st).challenges ↔ ¬ op.Spends app r := by
  have same : ∀ {s : Store}, s.challenges = st.challenges → (r ∈ s.challenges ↔ ¬ False) :=
    fun h => iff_of_true (h ▸ hr) id
  cases op with
  | createUser user =>
    exact same (keeps_challenge_write (fun _ _ h => (Store.insertUser_eq_ok h).2.2.1) st)
  | updateUser id email password =>
    exact same (keeps_challenge_write (fun _ _ h => (Store.updateUser_eq_ok h).2.1) st)
  | deleteUser id => exact mem_deleteUser_challenges hr
  | createClient env name grantType =>
    refine same ((congrArg Store.challenges (bind_snd (fun _ _ => rfl) st)).trans ?_)
    exact keeps_challenge_write (fun _ _ h => (Store.insertClient_eq_ok h).2.2.1) st
  | updateClient id name secret is_revoked => exact same rfl
  | revokeClient id =>
    refine same ?_
    unfold Op.perform
    dsimp only
    split <;> rfl
  | deleteClient id => exact mem_deleteClient_challenges hr
  | login env body =>
    refine iff_of_true ?_ id
    show r ∈ (postLogin app env body st).2.challenges
    rcases hp : postLogin app env body st with ⟨e | ⟨row, user, authorization⟩, t⟩
    · rw [postLogin_error hp]
      exact hr
    · obtain ⟨-, -, -, hi⟩ := postLogin_eq_ok.mp hp
      exact ((Store.insertChallenge_eq_ok hi).1 r).mpr (.inr hr)
  | token env req =>
    show r ∈ (postToken app env req st).2.challenges ↔ _
    rw [postToken_challenges]
    exact mem_validate hr
  | refresh env req => exact same (postRefresh_challenges app env req st)

/-- A challenge after a step was there before it, or the step wrote it under its id. -/
theorem id_of_mem_perform (hr : r ∈ (op.perform app st).challenges) :
    r ∈ st.challenges ∨ op.codeId = some r.id := by
  rcases @perform_codes app op st with h | ⟨env, body, row, user, authorization, rfl, hlogin⟩
  · exact .inl (h.challenges r hr)
  · obtain ⟨-, ⟨g, hm⟩, -, hi⟩ := postLogin_eq_ok.mp hlogin
    rcases ((Store.insertChallenge_eq_ok hi).1 r).mp hr with rfl | hr
    · exact .inr (by rw [hm.id]; rfl)
    · exact .inl hr

/-- No challenge goes by the id. -/
def NoCode (id : Uuid) (st : Store) : Prop := ∀ r ∈ st.challenges, r.id ≠ id

theorem NoCode.run {ops : List Op} {id : Uuid} (hrun : Run (Step app) st ops st')
    (hfresh : ∀ op ∈ ops, op.codeId ≠ some id) (h : NoCode id st) : NoCode id st' := by
  refine hrun.invariant_along (P := fun _ op => op.codeId ≠ some id) ?_
    (.of_forall fun op hop _ => hfresh op hop) h
  rintro s op t hs hop rfl r hr hid
  rcases id_of_mem_perform hr with hr | hcode
  · exact hs r hr hid
  · exact hop (hid ▸ hcode)

/-- **Main theorem**: after any run, a code is there iff no step of the run spent it. Codes do not
    expire, and they outlive a change of the password and a revocation of the client. -/
theorem code_lives {ops : List Op} (hrun : Run (Step app) st ops st') (hr : r ∈ st.challenges)
    (hfresh : ∀ op ∈ ops, op.codeId ≠ some r.id) :
    r ∈ st'.challenges ↔ Along (Step app) (fun _ op => ¬ op.Spends app r) st ops := by
  induction hrun with
  | nil s => exact iff_of_true hr (Along.of_forall (by simp))
  | @cons s m t op ops hstep hrun ih =>
    subst hstep
    have htail : ∀ op ∈ ops, op.codeId ≠ some r.id :=
      fun op hop => hfresh op (List.mem_cons_of_mem _ hop)
    by_cases hspends : op.Spends app r
    · refine iff_of_false (fun ht => ?_) fun h => h.head hspends
      refine NoCode.run hrun htail (fun x hx hid => ?_) r ht rfl
      -- the only challenge by that id was the one that is spent
      rcases id_of_mem_perform hx with hx' | hcode
      · cases Table.eq_of_key_eq hx' hr hid
        exact (mem_perform_challenges hr).mp hx hspends
      · exact hfresh op (List.mem_cons_self ..) (hid ▸ hcode)
    · rw [ih ((mem_perform_challenges hr).mpr hspends) htail]
      constructor
      · intro h
        refine .cons hspends ?_
        rintro _ rfl
        exact h
      · exact fun h => h.tail rfl

theorem presentedCode_eq_some {id : Uuid} (h : presentedCode app req = some id) :
    req.acceptsJson = true ∧ ∃ payload g, AccessTokenService.validateContent app req.body =
      .ok payload ∧ GrantTypes.ofText? (text payload "grant_type") = some g ∧
        g ≠ .ImplicitPassword ∧ Uuid.ofText? (text payload "code") = some id := by
  unfold presentedCode at h
  split at h
  · rename_i haccepts
    split at h
    · rename_i payload hpayload
      split at h
      · rename_i hg
        exact ⟨haccepts, payload, _, hpayload, hg, by decide, h⟩
      · rename_i hg
        exact ⟨haccepts, payload, _, hpayload, hg, by decide, h⟩
      · cases h
    · cases h
  · cases h

theorem consumeCode_of_noCode (env : Env) {code : String} {id : Uuid}
    (hcode : Uuid.ofText? code = some id) (h : NoCode id st) :
    AuthorizationChallengeRepoService.consumeCode env code st = (.error .emptyResult, st) := by
  have hfind : AuthorizationChallengeRepoService.findByPk code st = .error .emptyResult := by
    unfold AuthorizationChallengeRepoService.findByPk
    simp only [hcode]
    split
    · rfl
    · rename_i row hrow
      obtain ⟨hmem, hid⟩ := Table.mem_of_find? hrow
      exact absurd hid (h row hmem)
  unfold AuthorizationChallengeRepoService.consumeCode Action.transaction
  rw [Action.bind_run, Db.query_run, hfind]

/-- A code that is not there gets no tokens, and the request changes nothing. -/
theorem postToken_of_noCode {id : Uuid} (hcode : presentedCode app req = some id)
    (h : NoCode id st) : postToken app env req st = (.error .emptyResult, st) := by
  obtain ⟨haccepts, payload, g, hcontent, hg, hne, htext⟩ := presentedCode_eq_some hcode
  have hconsume := consumeCode_of_noCode env htext h
  have hguard : AccessTokenService.validate app env req st = (.error .emptyResult, st) := by
    unfold AccessTokenService.validate
    rw [haccepts, Action.bind_of_ok (Action.guard_run true _ st),
      Action.bind_of_ok (a := payload) (t := st) (by rw [Action.lift_run, hcontent])]
    simp only [hg]
    cases g with
    | ImplicitPassword => exact absurd rfl hne
    | PKCE =>
      refine Action.bind_eq_error.mpr (.inl (Action.bind_eq_error.mpr (.inl hconsume)))
    | AuthorizationCode =>
      exact Action.bind_eq_error.mpr (.inl (Action.bind_eq_error.mpr (.inl hconsume)))
  unfold postToken
  refine Action.bind_eq_error.mpr (.inl ?_)
  rw [handleRequest, hguard]

/-- **Main theorem**: once a request has presented a code and its row is deleted, whether the
    request then got tokens or not, no request with that code gets any, after whatever steps. -/
theorem codes_single_use {id : Uuid} {env₁ env₂ : Env} {req₁ req₂ : Request} {ops : List Op}
    (hcode₁ : presentedCode app req₁ = some id) (hworks : env₁.fails .destroyChallenge = false)
    (hrun : Run (Step app) (postToken app env₁ req₁ st).2 ops st')
    (hfresh : ∀ op ∈ ops, op.codeId ≠ some id) (hcode₂ : presentedCode app req₂ = some id) :
    postToken app env₂ req₂ st' = (.error .emptyResult, st') := by
  refine postToken_of_noCode hcode₂ (NoCode.run hrun hfresh ?_)
  intro r hr hid
  have hr' : r ∈ (Op.perform app (.token env₁ req₁) st).challenges := hr
  rcases id_of_mem_perform hr' with hold | hcode
  · exact (mem_perform_challenges hold).mp hr' ⟨hid ▸ hcode₁, hworks⟩
  · cases hcode

end Codes

theorem code_lives_sample : Sample.code .PKCE ∈
    (performAll Sample.app Sample.lockOut (Sample.codeStore .PKCE)).challenges := by
  refine (code_lives (run_performAll Sample.app Sample.lockOut _) (by decide) (by decide)).mpr
    (.of_forall ?_)
  intro op hop m
  rcases List.mem_pair.mp hop with rfl | rfl <;> exact id

/-- The user logs in again, and the client is revoked. -/
def Sample.secondLogin : List Op :=
  [.login (Sample.env 6 7) (some (Sample.loginBody (Sample.authorization 1 .PKCE))),
    .revokeClient (Sample.uuid 1)]

/-- The code `2` is presented under another grant type for another client, and later exchanged. -/
theorem codes_single_use_sample :
    let st := performAll Sample.app Sample.secondLogin (postToken Sample.app (Sample.env 5 3)
      (Sample.exchange .AuthorizationCode [("client_id", (Sample.uuid 5).toString),
        ("client_secret", "guess")]) (Sample.codeStore .PKCE)).2
    postToken Sample.app (Sample.env 7 4) (Sample.exchange .PKCE
      [("code_verifier", "dBjftJeZ4CVP-mB92K27uhbUJU1p1r_wW1gFWFOEjXk")]) st =
        (.error .emptyResult, st) :=
  codes_single_use (show _ = some (Sample.uuid 2) by decide) rfl
    (run_performAll Sample.app Sample.secondLogin _) (by decide) (by decide)

/-! ## Refresh tokens -/

section Refreshes

variable {app : App} {env : Env} {req : Request} {st st' : Store}

/-- The refresh token a request presents, by the id in its bearer. -/
def presentedRefreshToken (app : App) (req : Request) : Option String :=
  req.body.bind fun payload => app.verifyAsync (text payload "refresh_token")

/-- Every refresh token after a run was there before it, or the run issued its id. -/
theorem refresh_id_mem_issuedIds {ops : List Op} (hrun : Run (Step app) st ops st')
    {r : RefreshTokenModel} (hr : r ∈ st'.refreshTokens) :
    r ∈ st.refreshTokens ∨ r.id ∈ issuedIds app st ops := by
  rcases run_refreshTokens hrun hr with h | ⟨pre, op, post, m, env, a, res, m', rfl, hpre, hissue⟩
  · exact .inl h
  · right
    rw [issuedIds_append hpre, issuedIds, hissue.issuedIds]
    simp

theorem Presents.presented {r : RefreshTokenModel} (h : Presents app req st r) :
    presentedRefreshToken app req = some r.id := by
  obtain ⟨payload, hbody, -, hverify⟩ := h
  rw [presentedRefreshToken, hbody, Option.bind_some, hverify]

/-- A rotation leaves no refresh token under the id it was asked for. -/
theorem not_mem_of_rotated {res : BearerTokenResult} {m : Store} {id : String}
    (h : postRefresh app env req st = (.ok res, m)) (hid : presentedRefreshToken app req = some id) :
    ∀ x ∈ m.refreshTokens, x.id ≠ id := by
  obtain ⟨current, old, a, r, hpresents, hold, hrep⟩ := postRefresh_frame h
  cases hpresents.presented.symm.trans hid
  obtain ⟨-, -, hcurrent, -⟩ := hpresents
  intro x hx hxid
  rcases (hrep.refreshTokens x).mp hx with rfl | ⟨hx, hne⟩
  · exact hrep.refreshToken current hcurrent hxid.symm
  · cases Table.eq_of_key_eq hx hcurrent hxid
    exact hne hold.symm

/-- **Main theorem**: once a refresh token has been rotated, every later request with its bearer
    fails and changes nothing, after whatever steps that do not make its id anew. -/
theorem refresh_tokens_single_use {id : String} {env₁ env₂ : Env} {req₁ req₂ : Request}
    {res : BearerTokenResult} {m : Store} {ops : List Op}
    (hfirst : postRefresh app env₁ req₁ st = (.ok res, m))
    (hid₁ : presentedRefreshToken app req₁ = some id) (hrun : Run (Step app) m ops st')
    (hids : id ∉ issuedIds app m ops) (hid₂ : presentedRefreshToken app req₂ = some id) :
    ∃ e, postRefresh app env₂ req₂ st' = (.error e, st') := by
  have hgone : ∀ x ∈ st'.refreshTokens, x.id ≠ id := by
    intro x hx hxid
    rcases refresh_id_mem_issuedIds hrun hx with hx | hissued
    · exact not_mem_of_rotated hfirst hid₁ x hx hxid
    · exact hids (hxid ▸ hissued)
  rcases hp : postRefresh app env₂ req₂ st' with ⟨e | res', t⟩
  · exact ⟨e, by rw [postRefresh_error hp]⟩
  · obtain ⟨current, old, a, r, hpresents, -⟩ := postRefresh_frame hp
    have hid := Option.some.inj (hpresents.presented.symm.trans hid₂)
    obtain ⟨-, -, hcurrent, -⟩ := hpresents
    exact absurd hid (hgone current hcurrent)

end Refreshes

/-- The refresh token `3` is rotated, the user loses the password and the client is revoked. -/
theorem refresh_tokens_single_use_sample : ∃ e,
    let st := performAll Sample.app Sample.lockOut
      (postRefresh Sample.app (Sample.pairEnv 6 4 5) Sample.rotationRequest
        (performAll Sample.app Sample.pairRun .empty)).2
    postRefresh Sample.app (Sample.pairEnv 7 6 7) Sample.rotationRequest st = (.error e, st) := by
  obtain ⟨res, m, hfirst⟩ := Action.returns_iff.mp (show Action.returns
    (postRefresh Sample.app (Sample.pairEnv 6 4 5) Sample.rotationRequest)
      (performAll Sample.app Sample.pairRun .empty) = true by decide)
  have hid : presentedRefreshToken Sample.app Sample.rotationRequest =
      some (hex (Sample.pairEnv 5 2 3).refreshTokenBytes.toList) := by decide
  rw [hfirst]
  exact refresh_tokens_single_use hfirst hid (run_performAll Sample.app Sample.lockOut m)
    (by simp [Sample.lockOut, issuedIds, Op.issuedIds, Op.response]) hid

end NestTemplate
