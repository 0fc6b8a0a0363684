import NestTemplate.Auth.Runs

/-!
# Revoked clients

`ClientRepoService.revoke` writes `is_revoked: false`, the value every client
has from the start. The flag itself is read when a code is minted and when a
bearer is authenticated, and on none of the ways to a new pair of tokens.

* `revoke_not_effective`: no revocation has an effect, whatever follows.
* `issues_nothing_iff`: exactly which requests issue no token to a client; the
  flag does not occur in the condition.
-/

namespace NestTemplate

open Common

/-! ## `revoke` -/

/-- The tokens of the client are inactive, and no grant type accepts its id. -/
def RevocationEffective (st : Store) (client : ClientModel) : Prop :=
  (∀ now, ∀ a ∈ st.accessTokens, a.client_id = client.id →
    AccessTokenRepoService.findForActiveState now a.id st = none) ∧
  ∀ (g : GrantTypes) object, object.get? "grant_type" = some (.str g.text) →
    ClientIdExistsValidator.validate st object (some (.str client.id.toString)) = .ok false

/-- After `revoke` the client is active, and stays so through any requests. -/
theorem active_after_revoke {app : App} {st st' : Store} {client : ClientModel} {ops : List Op}
    (hc : client ∈ st.clients) (hops : ∀ op ∈ ops, op.isRequest = true)
    (hrun : Run (Step app) (ClientRepoService.revoke client st).2 ops st') :
    { client with is_revoked := false } ∈ st'.clients := by
  have hstart : { client with is_revoked := false } ∈
      (ClientRepoService.revoke client st).2.clients :=
    (@Store.mem_updateClient st client.id (fun c => { c with is_revoked := false })
      (fun _ => rfl) _).mpr (.inl ⟨client, hc, rfl, rfl⟩)
  generalize (ClientRepoService.revoke client st).2 = s at hrun hstart
  induction hrun with
  | nil => exact hstart
  | cons hstep _ ih =>
    obtain ⟨hop, hops⟩ := List.forall_mem_cons.mp hops
    refine ih hops ?_
    rw [hstep, (perform_request hop).1]
    exact hstart

/-- **Main theorem**: in no store does revoking a client take effect, neither at once nor after
    any further logins, token requests and refreshes. -/
theorem revoke_not_effective {app : App} {st st' : Store} {client : ClientModel} {ops : List Op}
    (hc : client ∈ st.clients) (hops : ∀ op ∈ ops, op.isRequest = true)
    (hrun : Run (Step app) (ClientRepoService.revoke client st).2 ops st') :
    ¬ RevocationEffective st' client := by
  rintro ⟨-, hvalidator⟩
  have hactive := active_after_revoke hc hops hrun
  let object := Json.obj [("grant_type", .str client.grant_type.text)]
  have hg : object.get? "grant_type" = some (.str client.grant_type.text) := by
    simp [object, Json.get?, Json.lookup]
  have hpass : ClientIdExistsValidator.validate st' object (some (.str client.id.toString)) =
      .ok true :=
    (ClientIdExistsValidator.validate_eq_true (Uuid.toString_ne_empty _) hg).mpr
      ⟨_, hactive, Uuid.ofText?_toString _, rfl, rfl⟩
  rw [hvalidator _ _ hg] at hpass
  cases hpass

theorem revoke_not_effective_sample :
    ¬ RevocationEffective (performAll Sample.app [.token (Sample.env 5 3) Sample.passwordRequest]
      (ClientRepoService.revoke (Sample.client .ImplicitPassword)
        (Sample.clientStore .ImplicitPassword)).2) (Sample.client .ImplicitPassword) :=
  revoke_not_effective (by decide) (by decide) (run_performAll Sample.app _ _)

/-- The bearer of a revoked client's access token is still authenticated. -/
theorem revoked_bearer_active :
    ∃ st client, Reachable Sample.app st ∧ client ∈ st.clients ∧
      ¬ RevocationEffective (ClientRepoService.revoke client st).2 client := by
  refine ⟨performAll Sample.app (Sample.clientRun .ImplicitPassword ++
    [.token (Sample.env 5 3) Sample.passwordRequest]) .empty, Sample.client .ImplicitPassword,
    ⟨_, run_performAll _ _ _⟩, by decide, ?_⟩
  rintro ⟨htokens, -⟩
  have h := htokens 6 ((Sample.env 5 3).accessToken (Sample.uuid 1) (some 1) (some 1005))
    (by decide) rfl
  revert h
  decide

/-! ## New tokens for a revoked client -/

/-- The step adds no access token of the client. -/
def IssuesNothingTo (app : App) (op : Op) (st : Store) (client : ClientModel) : Prop :=
  ∀ a ∈ (op.perform app st).accessTokens, a.client_id = client.id → a ∈ st.accessTokens

/-- The credentials of the request lead to the client, and none of its steps fails. -/
inductive Authenticates (app : App) (st : Store) (client : ClientModel) : Op → Prop
  | token {env : Env} {req : Request} {payload : Json} {grantType : GrantTypes}
      {user : UserModel} {m : Store}
      (hgranted : TokenGranted app env req st payload grantType user client m)
      (hworks : env.Works) (hfresh : env.Fresh st) : Authenticates app st client (.token env req)
  | refresh {env : Env} {req : Request} {payload : Json} {presented : ClientModel}
      {current : RefreshTokenModel} {old : AccessTokenModel}
      (hgranted : RefreshGranted app env req st payload presented current)
      (hold : old ∈ st.accessTokens) (hcurrent : old.id = current.access_token_id)
      (hclient : old.client_id = client.id) (hworks : env.Works) (hfresh : env.Fresh st)
      (hdestroy : env.fails .destroyAccessToken = false) :
      Authenticates app st client (.refresh env req)

/-- A request that leads to the client adds an access token of the client. -/
theorem Authenticates.issues {app : App} {op : Op} {st : Store} {client : ClientModel}
    (h : Authenticates app st client op) :
    ∃ a ∈ (op.perform app st).accessTokens, a.client_id = client.id ∧ a ∉ st.accessTokens := by
  cases h with
  | token hg hw hf =>
    obtain ⟨st', hi⟩ := hg.insertTokens_isOk.mpr hf
    obtain ⟨ha, -, hst'⟩ := (Issues.token hw hg rfl rfl hi).mem
    rw [← hst'] at ha
    exact ⟨_, ha, rfl, fun hmem => hf.accessToken _ hmem rfl⟩
  | refresh hg ho eo hclient hw hf hd =>
    obtain ⟨m, hi⟩ := (insertTokens_for_old ho).mpr hf
    obtain ⟨ha, -, hst'⟩ := (Issues.refresh hw hd hg ho eo rfl rfl hi).mem
    rw [← hst'] at ha
    exact ⟨_, ha, hclient, fun hmem => hf.accessToken _ hmem rfl⟩

/-- **Main theorem**: a step issues no token to a client, revoked or not, iff its credentials do
    not lead to the client or one of its steps fails. -/
theorem issues_nothing_iff {app : App} {op : Op} {st : Store} {client : ClientModel}
    (hc : client ∈ st.clients) :
    IssuesNothingTo app op st client ↔ ¬ Authenticates app st client op := by
  constructor
  · intro h hauth
    obtain ⟨a, ha, hclient, hnew⟩ := hauth.issues
    exact hnew (h a ha hclient)
  · intro h a ha hclient
    rcases perform_accessTokens ha with hold | ⟨env, r, res, st', hissue⟩
    · exact hold
    · exfalso
      cases hissue with
      | token hw hg ha' hr hi =>
        subst ha' hr
        obtain ⟨-, hmem, -⟩ := hg.granted.frame
        obtain rfl := Table.eq_of_key_eq hmem hc hclient
        exact h (.token hg hw (hg.insertTokens_isOk.mp ⟨_, hi⟩))
      | refresh hw hd hg ho eo ha' hr hi =>
        subst ha' hr
        exact h (.refresh hg ho eo hclient hw ((insertTokens_for_old ho).mp ⟨_, hi⟩) hd)

namespace Sample

/-- The store of `clientRun` after the client's flag was set. -/
def revokedRun : List Op :=
  clientRun .ImplicitPassword ++ [.updateClient (uuid 1) "client" (secret 1) true]

def revokedClient : ClientModel := { client .ImplicitPassword with is_revoked := true }

end Sample

theorem issues_nothing_iff_sample :
    IssuesNothingTo Sample.app (.token (Sample.env 5 3) Sample.passwordRequest)
        (performAll Sample.app Sample.revokedRun .empty) Sample.revokedClient ↔
      ¬ Authenticates Sample.app (performAll Sample.app Sample.revokedRun .empty)
        Sample.revokedClient (.token (Sample.env 5 3) Sample.passwordRequest) :=
  issues_nothing_iff (by decide)

/-- In a reachable store a revoked client gets a token for the user's password. -/
theorem token_for_revoked_client :
    ∃ st client, Reachable Sample.app st ∧ client ∈ st.clients ∧ client.is_revoked = true ∧
      ¬ IssuesNothingTo Sample.app (.token (Sample.env 5 3) Sample.passwordRequest) st client := by
  refine ⟨performAll Sample.app Sample.revokedRun .empty, Sample.revokedClient,
    ⟨_, run_performAll _ _ _⟩, by decide, rfl, fun h => ?_⟩
  have hmem := h ((Sample.env 5 3).accessToken (Sample.uuid 1) (some 1) (some 1005))
    (by decide) rfl
  revert hmem
  decide

end NestTemplate
