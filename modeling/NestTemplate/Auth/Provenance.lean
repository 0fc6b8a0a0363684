import NestTemplate.Auth.TokenLives

/-!
# Where tokens come from

A token is a claim that somebody logged in. Here every access token is traced
back through rotations and codes to the request that carried the password.

* `Op.Authenticates`: the two ways to show a password, the form of the login page
  and the password grant.
* `Vouched`: somebody did so earlier in the run, and neither the user nor the
  client was deleted since.
* `no_token_without_password`: every access token and every code is vouched for.
-/

namespace NestTemplate

open Common

/-! ## Passwords -/

/-- A text of the body, `""` if there is none. -/
def bodyText (body : Option Json) (name : String) : String := text (body.getD (.obj [])) name

/-- The body carries the e-mail of the user, and a password that goes with the hash of the row. -/
def CarriesPassword (app : App) (body : Option Json) (user : UserModel) : Prop :=
  bodyText body "email" = user.email ∧
    ∃ hash, user.password = some hash ∧ app.compare (bodyText body "password") hash = true

/-- The step is a request that shows the password of `user` to log in at `client`, and that the
    guard lets through. -/
def Op.Authenticates (app : App) (op : Op) (st : Store) (user : UserModel) (client : Uuid) : Prop :=
  match op with
  | .token env req => CarriesPassword app req.body user ∧ user ∈ st.users ∧
      ∃ c m, c.id = client ∧ AccessTokenService.validate app env req st = (.ok (user, c), m)
  | .login env body => CarriesPassword app body user ∧ user ∈ st.users ∧
      ∃ row authorization m, row.client_id = client ∧
        postLogin app env body st = (.ok (row, user, authorization), m)
  | _ => False

/-- In the run over `ops` from the migrated database the user showed his password to log in at the
    client, and both are there since. -/
def Vouched (app : App) (ops : List Op) (user : ℕ) (client : Uuid) : Prop :=
  ∃ pre op post m u, ops = pre ++ op :: post ∧ Run (Step app) .empty pre m ∧
    op.Authenticates app m u client ∧ u.id = user ∧
      .deleteUser user ∉ post ∧ .deleteClient client ∉ post

section

variable {app : App} {env : Env} {st st' : Store} {op : Op} {ops : List Op} {user : UserModel}

theorem password_of_validateForPassword {email password : String}
    (h : AuthService.validateForPassword app email password st = some user) :
    ∃ hash, user.password = some hash ∧ app.compare password hash = true := by
  unfold AuthService.validateForPassword at h
  split at h
  · cases h
  · split at h
    · cases h
    · rename_i hash hpassword
      split at h
      · rename_i hcompare
        cases h
        exact ⟨hash, hpassword, hcompare.2⟩
      · cases h

theorem CarriesPassword.of_validate {body : Option Json}
    (h : AuthService.validateForPassword app (bodyText body "email") (bodyText body "password") st =
      some user) : CarriesPassword app body user ∧ user ∈ st.users :=
  ⟨⟨(AuthService.email_of_validateForPassword h).symm, password_of_validateForPassword h⟩,
    AuthService.mem_of_validateForPassword h⟩

/-- The token that the strategy puts into the body of a login leaves its other texts alone. -/
theorem text_withToken {body token : Json} {name : String} (hname : name ≠ "token") :
    text (AuthorizationLoginStrategy.withToken body token) name = text body name := by
  unfold text AuthorizationLoginStrategy.withToken
  cases body with
  | obj ms =>
    show ((Json.lookup name (Json.setMember "token" token ms)).bind Json.str?).getD "" = _
    rw [Json.lookup_setMember_of_ne hname]
    rfl
  | _ => rfl

theorem text_bodyOrEmpty (body : Option Json) (name : String) :
    text (AuthorizationLoginStrategy.bodyOrEmpty body) name = bodyText body name := by
  unfold AuthorizationLoginStrategy.bodyOrEmpty bodyText
  by_cases hbody : Json.truthy body = true
  · rw [if_pos hbody]
  · rw [if_neg hbody]
    cases body with
    | none => rfl
    | some o =>
      cases o with
      | arr vs | obj ms => exact absurd rfl hbody
      | _ => rfl

/-! ## The two ways in -/

theorem LoginGranted.carriesPassword {body : Option Json} {token payload authorization : Json}
    (h : LoginGranted app body st token payload user authorization) :
    CarriesPassword app body user ∧ user ∈ st.users := by
  have hbody := (validate_eq_ok.mp h.content).1
  have htext : ∀ name, name ≠ "token" → text payload name = bodyText body name := by
    intro name hname
    rw [← Option.some.inj hbody, text_withToken hname, text_bodyOrEmpty]
  refine CarriesPassword.of_validate ?_
  rw [← htext "email" (by decide), ← htext "password" (by decide)]
  exact h.credentials

/-- A granted token request shows the password of the user, or redeems a code of the user at the
    client. -/
theorem TokenGranted.authenticates {req : Request} {payload : Json} {g : GrantTypes}
    {client : ClientModel} {m : Store} (h : TokenGranted app env req st payload g user client m) :
    (Op.token env req).Authenticates app st user client.id ∨
      ∃ r ∈ st.challenges, r.user_id = user.id ∧ r.client_id = client.id := by
  have hvalidate := AccessTokenService.validate_eq_ok.mpr
    ⟨h.accept, payload, g, h.content, h.grant_type, h.granted⟩
  have hbody := (validate_eq_ok.mp h.content).1
  cases h.granted with
  | password hclient huser =>
    have hcarries : CarriesPassword app req.body user ∧ user ∈ st.users := by
      refine CarriesPassword.of_validate ?_
      rw [hbody]
      exact huser
    exact .inl ⟨hcarries.1, hcarries.2, client, _, rfl, hvalidate⟩
  | pkce hcode | code hcode =>
    obtain ⟨-, hr, ⟨-, hu⟩, -, hc⟩ := AuthorizationChallengeRepoService.findByPk_eq_ok.mp hcode
    exact .inr ⟨_, hr, hu.symm, hc.symm⟩

/-! ## Whole runs -/

/-- Who was vouched for is so after another step, unless it deletes the user or the client. -/
theorem Vouched.snoc {u : ℕ} {client : Uuid} (h : Vouched app ops u client)
    (huser : op ≠ .deleteUser u) (hclient : op ≠ .deleteClient client) :
    Vouched app (ops ++ [op]) u client := by
  obtain ⟨pre, op₀, post, m, v, rfl, hrun, hauth, hid, hu, hc⟩ := h
  refine ⟨pre, op₀, post ++ [op], m, v, by simp, hrun, hauth, hid, ?_, ?_⟩
  · simp [hu, huser.symm]
  · simp [hc, hclient.symm]

theorem Vouched.here {client : Uuid} (hrun : Run (Step app) .empty ops st)
    (h : op.Authenticates app st user client) : Vouched app (ops ++ [op]) user.id client :=
  ⟨ops, op, [], st, user, rfl, hrun, h, rfl, by simp, by simp⟩

/-- Every access token and every code is vouched for. -/
structure AllVouched (app : App) (ops : List Op) (st : Store) : Prop where
  accessTokens : ∀ a ∈ st.accessTokens, ∃ u, a.user_id = some u ∧ Vouched app ops u a.client_id
  challenges : ∀ r ∈ st.challenges, Vouched app ops r.user_id r.client_id

theorem AllVouched.challenges_step (h : AllVouched app ops st)
    (hrun : Run (Step app) .empty ops st) :
    ∀ r ∈ (op.perform app st).challenges, Vouched app (ops ++ [op]) r.user_id r.client_id := by
  have hold : ∀ r ∈ (op.perform app st).challenges, r ∈ st.challenges →
      Vouched app (ops ++ [op]) r.user_id r.client_id := by
    intro r hr hmem
    have hspends := (mem_perform_challenges hmem).mp hr
    refine (h.challenges r hmem).snoc ?_ ?_
    · rintro rfl
      exact hspends rfl
    · rintro rfl
      exact hspends rfl
  intro r hr
  rcases @perform_codes app op st with hk | ⟨env, body, row, user, authorization, rfl, hlogin⟩
  · exact hold r hr (hk.challenges r hr)
  · obtain ⟨⟨token, payload, hg⟩, ⟨g, hm⟩, -, hi⟩ := postLogin_eq_ok.mp hlogin
    rcases ((Store.insertChallenge_eq_ok hi).1 r).mp hr with rfl | hmem
    · obtain ⟨hcarries, huser⟩ := hg.carriesPassword
      rw [hm.user_id]
      exact .here hrun ⟨hcarries, huser, r, authorization, _, rfl, hlogin⟩
    · exact hold r hr hmem

theorem AllVouched.accessTokens_step (h : AllVouched app ops st)
    (hrun : Run (Step app) .empty ops st) :
    ∀ a ∈ (op.perform app st).accessTokens,
      ∃ u, a.user_id = some u ∧ Vouched app (ops ++ [op]) u a.client_id := by
  have hold : ∀ a ∈ st.accessTokens, (∀ u, a.user_id = some u → op ≠ .deleteUser u) →
      op ≠ .deleteClient a.client_id →
        ∃ u, a.user_id = some u ∧ Vouched app (ops ++ [op]) u a.client_id := by
    intro a ha huser hclient
    obtain ⟨u, hu, hv⟩ := h.accessTokens a ha
    exact ⟨u, hu, hv.snoc (huser u hu) hclient⟩
  intro a ha
  cases token_change app op st with
  | same hu hc hres hs =>
    rw [hs.accessTokens] at ha
    exact hold a ha (fun u _ => hu u) (hc _)
  | issued hguard hissue hclient huser hadd =>
    rcases (hadd.accessTokens a).mp ha with rfl | ha
    · cases hissue with
      | token hw hg hrow =>
        subst hrow
        refine ⟨_, rfl, ?_⟩
        rcases hg.authenticates with hauth | ⟨r, hr, hu, hc⟩
        · exact .here hrun hauth
        · have hv := h.challenges r hr
          rw [hu, hc] at hv
          exact hv.snoc (by simp) (by simp)
    · exact hold a ha (by simp) (by simp)
  | rotated hissue hpresents hid hrep =>
    rcases (hrep.accessTokens a).mp ha with rfl | ⟨ha, -⟩
    · rw [hrep.client_id, hrep.user_id]
      exact hold _ hrep.old_mem (by simp) (by simp)
    · exact hold a ha (by simp) (by simp)
  | deletedUser hret =>
    obtain ⟨ha, hne⟩ := (hret.accessTokens a).mp ha
    refine hold a ha (fun u hu heq => ?_) (by simp)
    cases heq
    exact hne hu
  | deletedClient hret =>
    obtain ⟨ha, hne⟩ := (hret.accessTokens a).mp ha
    refine hold a ha (by simp) fun heq => ?_
    cases heq
    exact hne rfl

theorem AllVouched.of_run (hrun : Run (Step app) .empty ops st) : AllVouched app ops st := by
  induction ops using List.reverseRecOn generalizing st with
  | nil =>
    cases hrun
    exact ⟨fun a ha => absurd ha (Table.notMem_empty a), fun r hr => absurd hr (Table.notMem_empty r)⟩
  | append_singleton ops op ih =>
    obtain ⟨m, hpre, hlast⟩ := Run.append_iff.mp hrun
    obtain ⟨_, hstep, hnil⟩ := Run.cons_iff.mp hlast
    cases hnil
    cases hstep
    have h := ih hpre
    exact ⟨h.accessTokens_step hpre, h.challenges_step hpre⟩

/-- **Main theorem**: in every run, each access token is of a user who showed his password to log
    in at the token's client, in a request of the run, and neither was deleted after that. The same
    holds of each code. Rotations and codes pass a login on, and nothing else makes one. -/
theorem no_token_without_password (hrun : Run (Step app) .empty ops st) :
    (∀ a ∈ st.accessTokens, ∃ u, a.user_id = some u ∧ Vouched app ops u a.client_id) ∧
      ∀ r ∈ st.challenges, Vouched app ops r.user_id r.client_id :=
  ⟨(AllVouched.of_run hrun).accessTokens, (AllVouched.of_run hrun).challenges⟩

end

/-- The access token `3` was asked for with the password. -/
theorem no_token_without_password_sample : ∃ u, Sample.passwordToken.user_id = some u ∧
    Vouched Sample.app Sample.passwordRun u Sample.passwordToken.client_id :=
  (no_token_without_password (run_performAll Sample.app Sample.passwordRun .empty)).1
    Sample.passwordToken (by decide)

end NestTemplate
