import NestTemplate.Auth.Runs

/-!
# The grant type a client is registered for

`ClientIdExistsValidator` compares the requested grant type with the registered
one when a browser asks for a code. Nothing does on the way to tokens: the
password grant looks the client up by its credentials, and a code is redeemed
under whichever grant the token request names.

* `CodesFit`: the challenge of a code tells what its client is registered for.
* `TokenGranted.registered_iff`: when a granted request is of the client's grant type.
* `grant_type_enforced_iff`: the runs in which every access token is.
-/

namespace NestTemplate

open Common

/-- The request asks for tokens under the grant type. -/
def Request.HasGrantType (req : Request) (g : GrantTypes) : Prop :=
  ∃ body, req.body = some body ∧ body.get? "grant_type" = some (.str g.text)

/-- Every access token a token request of the run adds belongs to a client registered for the
    grant type of the request. -/
def GrantTypeEnforced (app : App) (ops : List Op) : Prop :=
  ∀ pre env req post st g a, ops = pre ++ .token env req :: post → Run (Step app) .empty pre st →
    req.HasGrantType g → a ∈ (postToken app env req st).2.accessTokens → a ∉ st.accessTokens →
      ∃ c ∈ (postToken app env req st).2.clients, c.id = a.client_id ∧ c.grant_type = g

/-- The request names a client that is registered for passwords, or a code of its grant. -/
def OfGrantType (st : Store) (payload : Json) : GrantTypes → Prop
  | .ImplicitPassword => ∀ client, ClientRepoService.findForIdAndSecret (text payload "client_id")
      (text payload "client_secret") st = .ok (some client) → client.grant_type = .ImplicitPassword
  | .PKCE => ∀ record, AuthorizationChallengeRepoService.findByPk (text payload "code") st =
      .ok record → record.row.challenge ≠ ""
  | .AuthorizationCode => ∀ record,
      AuthorizationChallengeRepoService.findByPk (text payload "code") st = .ok record →
        record.row.challenge = ""

/-- A token request the guard lets through, and none of whose steps fails, is of its grant type. -/
def KeepsRegistration (app : App) (st : Store) (op : Op) : Prop :=
  ∀ env req payload g user client m, op = .token env req →
    TokenGranted app env req st payload g user client m → env.Works → env.Fresh st →
      OfGrantType st payload g

/-! ## Codes fit their clients -/

/-- A client with a code is registered for PKCE if the code has a challenge, and for authorization
    codes if it has none. -/
def CodesFit (st : Store) : Prop :=
  ∀ r ∈ st.challenges, ∀ c ∈ st.clients, c.id = r.client_id →
    c.grant_type = if r.challenge = "" then .AuthorizationCode else .PKCE

/-- No code is added, and no client changes its grant type. -/
structure NoNewCodes (st st' : Store) : Prop where
  challenges : ∀ r ∈ st'.challenges, r ∈ st.challenges
  clients : ∀ c ∈ st'.clients, (∃ d ∈ st.clients, d.id = c.id ∧ d.grant_type = c.grant_type) ∨
    ∀ d ∈ st.clients, d.id ≠ c.id

namespace NoNewCodes

variable {st st' : Store}

theorem of_eq (hr : ∀ r ∈ st'.challenges, r ∈ st.challenges) (hc : st'.clients = st.clients) :
    NoNewCodes st st' :=
  ⟨hr, fun c h => .inl ⟨c, hc ▸ h, rfl, rfl⟩⟩

theorem refl (st : Store) : NoNewCodes st st := of_eq (fun _ => id) rfl

theorem of_retain (pu : UserModel → Bool) (pc : ClientModel → Bool)
    (pr : AuthorizationChallengeModel → Bool) (pa : AccessTokenModel → Bool) :
    NoNewCodes st (st.retain pu pc pr pa) :=
  ⟨fun _ h => (Store.mem_challenges_retain.mp h).1,
    fun c h => .inl ⟨c, (Store.mem_clients_retain.mp h).1, rfl, rfl⟩⟩

theorem of_updateClient (id : Uuid) (f : ClientModel → ClientModel) (hf : ∀ c, (f c).id = c.id)
    (hg : ∀ c, (f c).grant_type = c.grant_type) : NoNewCodes st (st.updateClient id f hf) := by
  refine ⟨fun _ h => h, fun c h => .inl ?_⟩
  rcases Store.mem_updateClient.mp h with ⟨d, hd, -, rfl⟩ | ⟨hd, -⟩
  · exact ⟨d, hd, (hf d).symm, (hg d).symm⟩
  · exact ⟨c, hd, rfl, rfl⟩

/-- The codes of `st'` are codes of `st`, whose clients were there. -/
theorem codesFit (h : NoNewCodes st st') (hst : CodesFit st) : CodesFit st' := by
  intro r hr c hc hid
  have hr' := h.challenges r hr
  rcases h.clients c hc with ⟨d, hd, hdid, hdg⟩ | hnew
  · rw [← hdg]
    exact hst r hr' d hd (hdid.trans hid)
  · obtain ⟨d, hd, hdid⟩ := st.challenge_client r hr'
    exact absurd (hdid.trans hid.symm) (hnew d hd)

end NoNewCodes

/-- A grant adds no code. -/
theorem Granted.challenges {app : App} {env : Env} {payload : Json} {st st' : Store}
    {g : GrantTypes} {user : UserModel} {client : ClientModel}
    (h : Granted app env payload st g user client st') : ∀ r ∈ st'.challenges, r ∈ st.challenges := by
  cases h with
  | password => exact fun _ hr => hr
  | pkce | code => exact fun _ hr => (Store.mem_deleteChallenge.mp hr).1

/-- A new client has no code. -/
theorem NoNewCodes.of_create (env : Env) (name : String) (grantType : GrantTypes) (st : Store) :
    NoNewCodes st (ClientRepoService.create env name grantType st).2 := by
  unfold ClientRepoService.create
  rw [Action.bind_run]
  split
  · rename_i hw
    have hi := Action.write_eq_ok.mp hw
    obtain ⟨hc, -, hr, -⟩ := Store.insertClient_eq_ok hi
    refine ⟨fun _ h => hr ▸ h, fun c h => ?_⟩
    rcases (hc c).mp h with rfl | hold
    · exact .inr (Store.insertClient_fresh hi)
    · exact .inl ⟨c, hold, rfl, rfl⟩
  · rename_i hw
    unfold Action.write at hw
    split at hw <;> cases hw
    exact .refl st

/-- A token request uses up a code at most, also when it fails. -/
theorem NoNewCodes.of_postToken (app : App) (env : Env) (req : Request) (st : Store) :
    NoNewCodes st (postToken app env req st).2 := by
  rcases hp : postToken app env req st with ⟨e | res, st'⟩
  · have hfewer := of_postToken_error (R := fun s t => ∀ r ∈ t.challenges, r ∈ s.challenges)
      (fun _ _ => id) (fun _ _ _ h h' r hr => h r (h' r hr))
      (fun _ _ _ hr => (Store.mem_deleteChallenge.mp hr).1) hp
    exact .of_eq hfewer (OnlyChallenges.of_postToken_error hp).clients
  · obtain ⟨-, payload, g, user, client, m, hg, a, r, -, -, hi, -⟩ := postToken_eq_ok.mp hp
    obtain ⟨-, -, -, hc, hr⟩ := Store.insertTokens_eq_ok hi
    obtain ⟨-, -, -, hc', -, -⟩ := hg.granted.frame
    exact .of_eq (fun x hx => hg.granted.challenges x (hr ▸ hx)) (hc.trans hc')

theorem NoNewCodes.of_postRefresh (app : App) (env : Env) (req : Request) (st : Store) :
    NoNewCodes st (postRefresh app env req st).2 := by
  rcases hp : postRefresh app env req st with ⟨e | res, st'⟩
  · rw [postRefresh_error hp]
    exact .refl st
  · obtain ⟨-, -, payload, client, current, -, old, -, -, a, r, -, -, ⟨m, hi, rfl⟩, -⟩ :=
      postRefresh_eq_ok.mp hp
    obtain ⟨-, -, -, hc, hr⟩ := Store.insertTokens_eq_ok hi
    refine .of_eq (fun x hx => ?_) ((Store.deleteAccessToken_clients m old.id).trans hc)
    rwa [Store.deleteAccessToken_challenges, hr] at hx

/-- A step adds no code, or it is a login that does. -/
theorem perform_codes {app : App} {op : Op} {st : Store} : NoNewCodes st (op.perform app st) ∨
    ∃ env body row user authorization, op = .login env body ∧
      postLogin app env body st = (.ok (row, user, authorization), op.perform app st) := by
  cases op with
  | createUser user =>
    refine .inl (Action.Keeps.write NoNewCodes.refl (fun s t hi => ?_) st)
    obtain ⟨-, hc, hr, -⟩ := Store.insertUser_eq_ok hi
    exact .of_eq (fun _ h => hr ▸ h) hc
  | updateUser id email password =>
    refine .inl (Action.Keeps.write NoNewCodes.refl (fun s t hi => ?_) st)
    obtain ⟨hc, hr, -⟩ := Store.updateUser_eq_ok hi
    exact .of_eq (fun _ h => hr ▸ h) hc
  | createClient env name grantType => exact .inl (.of_create env name grantType st)
  | updateClient id name secret is_revoked =>
    exact .inl (.of_updateClient id (fun c => { c with name, secret, is_revoked }) (fun _ => rfl)
      fun _ => rfl)
  | revokeClient id =>
    unfold Op.perform
    dsimp only
    split
    · exact .inl (.of_updateClient _ (fun c => { c with is_revoked := false }) (fun _ => rfl)
        fun _ => rfl)
    · exact .inl (.refl st)
  | deleteUser id | deleteClient id => exact .inl (.of_retain ..)
  | login env body =>
    rcases hp : postLogin app env body st with ⟨e | ⟨row, user, authorization⟩, st'⟩
    · rw [Op.perform, hp, postLogin_error hp]
      exact .inl (.refl st)
    · exact .inr ⟨env, body, row, user, authorization, rfl, by rw [Op.perform, hp]⟩
  | token env req => exact .inl (.of_postToken app env req st)
  | refresh env req => exact .inl (.of_postRefresh app env req st)

/-- A code that a login mints is for a client registered for the grant it is minted under. -/
theorem Minted.grant_type_eq {app : App} {env : Env} {body : Option Json} {st : Store}
    {token payload : Json} {user : UserModel} {authorization : Json} {g : GrantTypes}
    {row : AuthorizationChallengeModel} (hm : Minted env user authorization g row)
    (hlogin : LoginGranted app body st token payload user authorization) {c : ClientModel}
    (hc : c ∈ st.clients) (hid : c.id = row.client_id) :
    c.grant_type = if row.challenge = "" then .AuthorizationCode else .PKCE := by
  have hvalid := hlogin.valid hm.grant_type
  obtain ⟨s, hs, -, d, hd, hds, -, hdg⟩ := hvalid.client_id
  have hcd : d = c := by
    refine Table.eq_of_key_eq hd hc ?_
    have hrow := hm.client_id
    rw [text_of_get? hs, hds] at hrow
    rw [hid, Option.some.inj hrow]
  have hg : c.grant_type = g := by
    rw [hcd] at hdg
    exact GrantTypes.text_injective (by simpa using hdg.symm.trans hm.grant_type)
  rw [hg, hm.challenge]
  cases g with
  | ImplicitPassword => exact absurd rfl hm.allowed
  | AuthorizationCode => rfl
  | PKCE =>
    obtain ⟨⟨s, hs, hne⟩, -⟩ := hvalid.pkce hm.grant_type
    rw [if_neg]
    simpa [challengeOf, text_of_get? hs] using hne

/-- Every step keeps it. -/
theorem CodesFit.step {app : App} {st st' : Store} {op : Op} (h : CodesFit st)
    (hstep : Step app st op st') : CodesFit st' := by
  rw [hstep]
  rcases @perform_codes app op st with hk | ⟨env, body, row, user, authorization, -, hlogin⟩
  · exact hk.codesFit h
  · obtain ⟨⟨token, payload, hgranted⟩, ⟨g, hm⟩, -, hi⟩ := postLogin_eq_ok.mp hlogin
    obtain ⟨hr, -, hc, -⟩ := Store.insertChallenge_eq_ok hi
    intro r hmem c hcmem hid
    rw [hc] at hcmem
    rcases (hr r).mp hmem with rfl | hold
    · exact hm.grant_type_eq hgranted hcmem hid
    · exact h r hold c hcmem hid

theorem CodesFit.run {app : App} {ops : List Op} {st : Store}
    (hrun : Run (Step app) .empty ops st) : CodesFit st :=
  hrun.invariant (fun _ _ _ => CodesFit.step) fun r hr => absurd hr (by simp [Store.empty])

/-! ## Requests of the registered grant type -/

/-- A granted request is of its client's grant type iff the client it names, or the code it
    redeems, is. -/
theorem TokenGranted.registered_iff {app : App} {env : Env} {req : Request} {st m : Store}
    {payload : Json} {g : GrantTypes} {user : UserModel} {client : ClientModel} (hst : CodesFit st)
    (h : TokenGranted app env req st payload g user client m) :
    client.grant_type = g ↔ OfGrantType st payload g := by
  have hrecord : ∀ record,
      AuthorizationChallengeRepoService.findByPk (text payload "code") st = .ok record →
        record.client.grant_type =
          if record.row.challenge = "" then .AuthorizationCode else .PKCE := by
    intro record hcode
    obtain ⟨-, hr, -, hc, hid⟩ := AuthorizationChallengeRepoService.findByPk_eq_ok.mp hcode
    exact hst _ hr _ hc hid
  cases h.granted with
  | password hclient huser =>
    constructor
    · intro hg c hc
      obtain rfl : client = c := by simpa using hclient.symm.trans hc
      exact hg
    · exact fun hof => hof client hclient
  | @pkce record hcode =>
    rw [hrecord record hcode]
    constructor
    · intro hg r hr hempty
      obtain rfl : record = r := by simpa using hcode.symm.trans hr
      rw [if_pos hempty] at hg
      cases hg
    · exact fun hof => if_neg (hof record hcode)
  | @code record hcode =>
    rw [hrecord record hcode]
    constructor
    · intro hg r hr
      obtain rfl : record = r := by simpa using hcode.symm.trans hr
      by_contra hne
      rw [if_neg hne] at hg
      cases hg
    · exact fun hof => if_pos (hof record hcode)

/-- The payload the guard reads is the request's body, so its grant type is the request's. -/
theorem TokenGranted.hasGrantType {app : App} {env : Env} {req : Request} {st m : Store}
    {payload : Json} {g : GrantTypes} {user : UserModel} {client : ClientModel}
    (h : TokenGranted app env req st payload g user client m) : req.HasGrantType g := by
  refine ⟨payload, (validate_eq_ok.mp h.content).1, ?_⟩
  rw [AccessTokenDto.grant_type h.content, GrantTypes.text_of_ofText? h.grant_type]

/-- **Main theorem**: the registered grant type is enforced in a run iff each of its token requests
    that succeeds names a client registered for passwords or redeems a code of its own grant. -/
theorem grant_type_enforced_iff {app : App} {ops : List Op} :
    GrantTypeEnforced app ops ↔ Along (Step app) (KeepsRegistration app) .empty ops := by
  constructor
  · intro h pre op post st hops hrun env req payload g user client m hop hg hworks hfresh
    subst hop
    obtain ⟨st', hi⟩ := hg.insertTokens_isOk.mpr hfresh
    have hissue := Issues.token hworks hg rfl rfl hi
    obtain ⟨ha, -, hst'⟩ := hissue.mem
    rw [← hst'] at ha
    obtain ⟨c, hc, hid, hcg⟩ := h pre env req post st g _ hops hrun hg.hasGrantType ha
      fun hmem => hfresh.accessToken _ hmem rfl
    have hclients := (@perform_request app (.token env req) st rfl).1
    have hc' : c ∈ st.clients := hclients ▸ hc
    obtain ⟨-, hclient, -⟩ := hg.granted.frame
    obtain rfl : c = client := Table.eq_of_key_eq hc' hclient hid
    exact (hg.registered_iff (.run hrun)).mp hcg
  · intro h pre env req post st g a hops hrun hreq ha hnew
    obtain ⟨env', r, res, st', hissue⟩ :=
      (@perform_accessTokens app (.token env req) st a ha).resolve_left hnew
    cases hissue with
    | @token _ _ payload g' user client m _ _ _ hw hg ha' hr hi =>
      subst ha' hr
      have hof := h pre _ post st hops hrun env req payload g' user client m rfl hg hw
        (hg.insertTokens_isOk.mp ⟨_, hi⟩)
      have hgg : g' = g := by
        obtain ⟨body, hbody, hget⟩ := hreq
        obtain ⟨body', hbody', hget'⟩ := hg.hasGrantType
        obtain rfl : body = body' := by simpa using hbody.symm.trans hbody'
        exact GrantTypes.text_injective (by simpa using hget'.symm.trans hget)
      obtain ⟨-, hclient, -⟩ := hg.granted.frame
      have hclients := (@perform_request app (.token env req) st rfl).1
      exact ⟨client, hclients ▸ hclient, rfl, hgg ▸ (hg.registered_iff (.run hrun)).mpr hof⟩

namespace Sample

/-- The client `1`, registered for authorization codes, asks for tokens with the user's
    password. -/
def unregisteredRun : List Op :=
  clientRun .AuthorizationCode ++ [.token (env 5 3) passwordRequest]

end Sample

/-- A client registered for authorization codes gets a token for a password. -/
theorem password_tokens_for_code_client : ¬ GrantTypeEnforced Sample.app Sample.unregisteredRun := by
  intro h
  obtain ⟨c, hc, -, hg⟩ := h (Sample.clientRun .AuthorizationCode) (Sample.env 5 3)
    Sample.passwordRequest [] (Sample.clientStore .AuthorizationCode) .ImplicitPassword
    ((Sample.env 5 3).accessToken (Sample.uuid 1) (some 1) (some 1005)) rfl (run_performAll _ _ _)
    ⟨_, rfl, rfl⟩ (by decide) (by decide)
  have hclients := (@perform_request Sample.app (.token (Sample.env 5 3) Sample.passwordRequest)
    (Sample.clientStore .AuthorizationCode) rfl).1
  have hc' : c ∈ (Sample.clientStore .AuthorizationCode).clients := hclients ▸ hc
  have hall : ∀ c ∈ (Sample.clientStore .AuthorizationCode).clients,
      c.grant_type = .AuthorizationCode := by decide
  rw [hall c hc'] at hg
  cases hg

end NestTemplate
