import NestTemplate.Auth.Runs

/-!
# Which client a token request authenticates

The two exchanges that carry client credentials do not use all of them: the
authorization code grant compares the client's id and never its secret, and the
refresh route checks id and secret of a client that it does not compare with
the client of the refresh token.

* `codeExchange_authenticates_iff`, `refresh_boundToClient_iff`: exactly which
  requests are authenticated as their fields demand.
-/

namespace NestTemplate

open Common

/-! ## The authorization code grant -/

section CodeExchange

variable {app : App} {env : Env} {req : Request} {st : Store}

/-- A successful code exchange carried the id and the secret of the client its code was issued
    to. -/
def CodeExchangeAuthenticates (app : App) (env : Env) (req : Request) (st : Store) : Prop :=
  ∀ res st' payload, postToken app env req st = (.ok res, st') → req.body = some payload →
    text payload "grant_type" = GrantTypes.AuthorizationCode.text →
      ∃ record, AuthorizationChallengeRepoService.findByPk (text payload "code") st = .ok record ∧
        text payload "client_id" = record.client.id.toString ∧
          text payload "client_secret" = record.client.secret

/-- The request meets every check that is made of a code exchange, and nothing else fails. -/
structure CodeRedeemable (app : App) (env : Env) (req : Request) (st : Store) (payload : Json)
    (record : ChallengeRecord) : Prop where
  accept : req.acceptsJson = true
  content : AccessTokenService.validateContent app req.body = .ok payload
  grant_type : text payload "grant_type" = GrantTypes.AuthorizationCode.text
  code : AuthorizationChallengeRepoService.findByPk (text payload "code") st = .ok record
  client_id : record.client.id.toString = text payload "client_id"
  works : env.Works ∧ env.Fresh st ∧ env.fails .destroyChallenge = false

/-- A code exchange succeeds iff it meets those checks. -/
theorem postToken_code_isOk {payload : Json} (hbody : req.body = some payload)
    (hg : text payload "grant_type" = GrantTypes.AuthorizationCode.text) :
    (∃ res st', postToken app env req st = (.ok res, st')) ↔
      ∃ record, CodeRedeemable app env req st payload record := by
  rw [postToken_isOk]
  constructor
  · rintro ⟨hw, hf, payload', g, user, client, m, h⟩
    obtain ⟨hp, -⟩ := validate_eq_ok.mp h.content
    obtain rfl : payload' = payload := Option.some.inj (hp.symm.trans hbody)
    have hgt := h.grant_type
    rw [hg, GrantTypes.ofText?_text] at hgt
    cases hgt
    cases h.granted with
    | @code record hcode hd hclient =>
      exact ⟨record, h.accept, h.content, hg, hcode, hclient, hw, hf, hd⟩
  · rintro ⟨record, h⟩
    obtain ⟨hw, hf, hd⟩ := h.works
    exact ⟨hw, hf, payload, .AuthorizationCode, _, _, _, h.accept, h.content,
      by rw [hg, GrantTypes.ofText?_text], .code h.code hd h.client_id⟩

/-- **Main theorem**: a code exchange authenticates the client iff no check refuses it only where
    it carries the client's secret; the secret is no part of the checks. -/
theorem codeExchange_authenticates_iff :
    CodeExchangeAuthenticates app env req st ↔
      ∀ payload record, CodeRedeemable app env req st payload record →
        text payload "client_secret" = record.client.secret := by
  constructor
  · intro h payload record hr
    obtain ⟨hbody, -⟩ := validate_eq_ok.mp hr.content
    obtain ⟨res, st', hpost⟩ := (postToken_code_isOk hbody hr.grant_type).mpr ⟨record, hr⟩
    obtain ⟨record', hcode, -, hsecret⟩ := h res st' payload hpost hbody hr.grant_type
    cases hr.code.symm.trans hcode
    exact hsecret
  · intro h res st' payload hpost hbody hg
    obtain ⟨record, hr⟩ := (postToken_code_isOk hbody hg).mp ⟨res, st', hpost⟩
    exact ⟨record, hr.code, hr.client_id.symm, h payload record hr⟩

/-- A code is exchanged with the secret `guess`, which no client has. -/
theorem codeExchange_without_secret :
    ¬ CodeExchangeAuthenticates Sample.app (Sample.env 5 3)
      (Sample.exchange .AuthorizationCode
        [("client_id", (Sample.uuid 1).toString), ("client_secret", "guess")])
      (Sample.codeStore .AuthorizationCode) := by
  intro h
  obtain ⟨res, st', hpost⟩ := Action.returns_iff.mp (show Action.returns (postToken Sample.app
    (Sample.env 5 3) (Sample.exchange .AuthorizationCode
      [("client_id", (Sample.uuid 1).toString), ("client_secret", "guess")]))
    (Sample.codeStore .AuthorizationCode) = true by decide)
  obtain ⟨record, hcode, -, hsecret⟩ := h res st' _ hpost rfl (by decide)
  obtain ⟨-, -, -, hmem, -⟩ := AuthorizationChallengeRepoService.findByPk_eq_ok.mp hcode
  have hno : ∀ c ∈ (Sample.codeStore .AuthorizationCode).clients, c.secret ≠ "guess" := by
    decide
  exact hno _ hmem (hsecret.symm.trans (by decide))

end CodeExchange

/-! ## The refresh route -/

section Refresh

variable {app : App} {env : Env} {req : Request} {st : Store}

/-- The client whose credentials a successful refresh carried is the client of the access token
    that its refresh token belongs to. -/
def RefreshBoundToClient (app : App) (env : Env) (req : Request) (st : Store) : Prop :=
  ∀ res st' payload, postRefresh app env req st = (.ok res, st') → req.body = some payload →
    ∃ client current old,
      ClientRepoService.findForIdAndSecret (text payload "client_id")
        (text payload "client_secret") st = .ok (some client) ∧
      current ∈ st.refreshTokens ∧
        app.verifyAsync (text payload "refresh_token") = some current.id ∧
          old ∈ st.accessTokens ∧ old.id = current.access_token_id ∧ old.client_id = client.id

/-- **Main theorem**: a refresh is bound to its client iff the client it names is the client of its
    refresh token wherever the request meets all checks; the two are not compared. -/
theorem refresh_boundToClient_iff :
    RefreshBoundToClient app env req st ↔
      ∀ payload client current, RefreshGranted app env req st payload client current →
        env.Works → env.Fresh st → env.fails .destroyAccessToken = false →
          ∀ old ∈ st.accessTokens, old.id = current.access_token_id → old.client_id = client.id := by
  constructor
  · intro h payload client current hg hw hf hd old ho eo
    obtain ⟨hbody, -⟩ := validate_eq_ok.mp hg.content
    obtain ⟨res, st', hpost⟩ :=
      postRefresh_isOk.mpr ⟨hw, hf, hd, payload, client, current, hg⟩
    obtain ⟨client', current', old', hclient, hcurrent, hverify, ho', eo', hbound⟩ :=
      h res st' payload hpost hbody
    cases hclient.symm.trans hg.credentials
    have hid : current.id = current'.id := Option.some.inj (hg.bearer.symm.trans hverify)
    obtain rfl : current = current' := Table.eq_of_key_eq hg.mem hcurrent hid
    obtain rfl : old = old' := Table.eq_of_key_eq ho ho' (eo.trans eo'.symm)
    exact hbound
  · intro h res st' payload hpost hbody
    obtain ⟨hw, hf, hd, payload', client, current, hg⟩ := postRefresh_isOk.mp ⟨res, st', hpost⟩
    obtain ⟨hp, -⟩ := validate_eq_ok.mp hg.content
    obtain rfl : payload' = payload := Option.some.inj (hp.symm.trans hbody)
    obtain ⟨old, ho, eo⟩ := st.refreshToken_accessToken current hg.mem
    exact ⟨client, current, old, hg.credentials, hg.mem, hg.bearer, ho, eo,
      h _ _ _ hg hw hf hd old ho eo⟩

end Refresh

namespace Sample

/-- Clients `1` and `4`, and a pair of tokens `3` of client `1`. -/
def twoClientsRun : List Op :=
  clientRun .ImplicitPassword ++
    [.createClient (env 0 4) "other" .ImplicitPassword,
      .token (env 5 3) passwordRequest]

/-- Client `4` presents the refresh token of client `1`. -/
def crossRefresh : Request :=
  request [("client_id", (uuid 4).toString), ("client_secret", secret 4),
    ("refresh_token", app.signAsync (hex (env 5 3).refreshTokenBytes.toList))]

end Sample

/-- In a reachable store, a client refreshes the token of another. -/
theorem refresh_of_other_client :
    ∃ st, Reachable Sample.app st ∧
      ¬ RefreshBoundToClient Sample.app (Sample.env 9 5) Sample.crossRefresh st := by
  refine ⟨performAll Sample.app Sample.twoClientsRun .empty, ⟨_, run_performAll _ _ _⟩, ?_⟩
  intro h
  obtain ⟨res, st', hpost⟩ := Action.returns_iff.mp (show Action.returns (postRefresh Sample.app
    (Sample.env 9 5) Sample.crossRefresh) (performAll Sample.app Sample.twoClientsRun .empty) = true
    by decide)
  obtain ⟨client, current, old, hclient, -, -, ho, -, hbound⟩ := h res st' _ hpost rfl
  obtain ⟨-, hid, -⟩ := ClientRepoService.findForIdAndSecret_eq_some.mp hclient
  rw [show text _ "client_id" = (Sample.uuid 4).toString by decide, Uuid.ofText?_toString] at hid
  have hone : ∀ a ∈ (performAll Sample.app Sample.twoClientsRun .empty).accessTokens,
      a.client_id ≠ Sample.uuid 4 := by
    decide
  exact hone old ho (hbound.trans (Option.some.inj hid).symm)

end NestTemplate
