import NestTemplate.Auth.Runs

/-!
# How long tokens are accepted

`POST /oauth/token` stores both expiry dates where they belong. `consumeToken`
takes the refresh token's date first, and creates the access token with it, so
`POST /oauth/refresh` stores the two dates the other way round, and answers with
a date that is not the stored one.

* `lifetimesAgree_iff`: a step stores and answers the configured dates iff it is
  no refresh that goes through or the two lifetimes are equal.
* `lifetimes_of_runs`: the same for runs, and what it means for the time an
  access token is accepted.
-/

namespace NestTemplate

open Common

/-- Both lifetimes are positive where they are set. -/
def App.PositiveLifetimes (app : App) : Prop :=
  (∀ ms ∈ app.expirationTimeAccessToken, 0 < ms) ∧
    ∀ ms ∈ app.expirationTimeRefreshToken, 0 < ms

/-- The date a lifetime asks for. -/
def deadline (lifetime : Option ℕ) (now : ℕ) : Option ℕ := lifetime.map (now + ·)

theorem OauthController.expiration_eq_deadline {lifetime : Option ℕ} (h : ∀ ms ∈ lifetime, 0 < ms)
    (now : ℕ) : expiration lifetime now = deadline lifetime now := by
  rcases lifetime with _ | _ | ms
  · rfl
  · exact absurd (h 0 rfl) (lt_irrefl 0)
  · rfl

theorem deadline_injective {l l' : Option ℕ} {now : ℕ} (h : deadline l now = deadline l' now) :
    l = l' :=
  Option.map_injective (add_right_injective now) h

/-- The response of the step, if it has one, and the rows of the tokens it carries have the
    configured dates. -/
def LifetimesAgree (app : App) (st : Store) (op : Op) : Prop :=
  ∀ env res, op.response app st = some (env, res) →
    ∃ a ∈ (op.perform app st).accessTokens, ∃ r ∈ (op.perform app st).refreshTokens,
      a.id = hex env.accessTokenBytes.toList ∧ res.access_token = app.signAsync a.id ∧
      r.id = hex env.refreshTokenBytes.toList ∧ res.refresh_token = app.signAsync r.id ∧
      res.expires_at = a.expires_at ∧
      a.expires_at = deadline app.expirationTimeAccessToken env.now ∧
      r.expires_at = deadline app.expirationTimeRefreshToken env.now

/-- The step is no refresh that the guard grants and nothing else stops, unless the two lifetimes
    are equal. -/
def NoSwap (app : App) (st : Store) (op : Op) : Prop :=
  ∀ env req payload client current, op = .refresh env req →
    RefreshGranted app env req st payload client current → env.Works → env.Fresh st →
      env.fails .destroyAccessToken = false →
        app.expirationTimeAccessToken = app.expirationTimeRefreshToken

/-- What a step stores and answers is as configured iff it swaps nothing. -/
theorem lifetimesAgree_iff {app : App} (hpos : app.PositiveLifetimes) {st : Store} {op : Op} :
    LifetimesAgree app st op ↔ NoSwap app st op := by
  have haccess := OauthController.expiration_eq_deadline hpos.1
  have hrefresh := OauthController.expiration_eq_deadline hpos.2
  constructor
  · rintro h env req payload client current rfl hg hw hf hd
    obtain ⟨old, ho, eo⟩ := st.refreshToken_accessToken current hg.mem
    obtain ⟨m, hi⟩ := (insertTokens_for_old ho).mpr hf
    have hissue := Issues.refresh hw hd hg ho eo rfl rfl hi
    obtain ⟨b, hb, -, -, hid, -, -, -, -, hexp, -⟩ :=
      h env _ (Op.response_eq_some.mpr ⟨_, _, _, hissue⟩)
    obtain ⟨ha, -, hst'⟩ := hissue.mem
    rw [← hst'] at ha
    rw [← Table.eq_of_key_eq ha hb hid.symm, Env.accessToken,
      OauthController.refreshTokenExpiration, hrefresh] at hexp
    exact (deadline_injective hexp).symm
  · intro h env res hres
    obtain ⟨a, r, st', hissue⟩ := Op.response_eq_some.mp hres
    obtain ⟨ha, hr, hst'⟩ := hissue.mem
    rw [← hst'] at ha hr
    refine ⟨a, ha, r, hr, ?_⟩
    cases hissue with
    | token _ _ hrow hrow' =>
      subst hrow hrow'
      exact ⟨rfl, rfl, rfl, rfl, rfl, haccess _, hrefresh _⟩
    | refresh hw hd hg ho eo hrow hrow' hi =>
      subst hrow hrow'
      have heq := h _ _ _ _ _ rfl hg hw ((insertTokens_for_old ho).mp ⟨_, hi⟩) hd
      refine ⟨rfl, rfl, rfl, rfl, ?_, ?_, ?_⟩
      · exact congrArg (OauthController.expiration · env.now) heq
      · exact (hrefresh _).trans (by rw [heq])
      · exact (haccess _).trans (by rw [heq])

/-- **Main theorem**: the steps of a run all store and answer the configured dates iff none of
    them swaps; and then no access token is accepted later than the configured lifetime after the
    request that issued it. -/
theorem lifetimes_of_runs {app : App} (hpos : app.PositiveLifetimes) {ops : List Op} {st : Store}
    (hrun : Run (Step app) .empty ops st) :
    (Along (Step app) (LifetimesAgree app) .empty ops ↔ Along (Step app) (NoSwap app) .empty ops) ∧
    (Along (Step app) (NoSwap app) .empty ops →
      ∀ now id a, AccessTokenRepoService.findForActiveState now id st = some a →
        ∃ pre op post m env res, ops = pre ++ op :: post ∧ Run (Step app) .empty pre m ∧
          op.response app m = some (env, res) ∧ a.id = hex env.accessTokenBytes.toList ∧
            ∀ ms ∈ app.expirationTimeAccessToken, now ≤ env.now + ms) := by
  refine ⟨forall₅_congr fun pre op post m _ => forall_congr' fun _ => lifetimesAgree_iff hpos, ?_⟩
  intro hswap now id a hfind
  obtain ⟨ha, -, hactive, -⟩ := AccessTokenRepoService.findForActiveState_eq_some.mp hfind
  rcases run_accessTokens hrun ha with hno | ⟨pre, op, post, m, env, r, res, m', hops, hpre, hissue⟩
  · exact absurd hno (Table.notMem_empty a)
  · have hres := Op.response_eq_some.mpr ⟨a, r, m', hissue⟩
    obtain ⟨b, hb, -, -, hid, -, -, -, -, hexp, -⟩ :=
      (lifetimesAgree_iff hpos).mpr (hswap pre op post m hops hpre) env res hres
    obtain ⟨ha', -, hm'⟩ := hissue.mem
    rw [← hm'] at ha'
    have hida : a.id = hex env.accessTokenBytes.toList := by
      cases hissue with
      | token _ _ hrow => rw [hrow]; rfl
      | refresh _ _ _ _ _ hrow => rw [hrow]; rfl
    obtain rfl : a = b := Table.eq_of_key_eq ha' hb (hida.trans hid.symm)
    refine ⟨pre, op, post, m, env, res, hops, hpre, hres, hida, fun ms hms => ?_⟩
    refine hactive (env.now + ms) ?_
    rw [hexp, Option.mem_def.mp hms]
    rfl

namespace Sample

/-- The refresh of the tokens `3`, at time 9. -/
def refreshStep : Op := .refresh (env 9 5) refreshRequest

theorem app_positiveLifetimes : app.PositiveLifetimes := by
  constructor <;> rintro _ ⟨⟩ <;> decide

end Sample

/-- With lifetimes of 1000 and 2000 the refreshed access token is stored with 2000. -/
theorem refresh_swaps_lifetimes :
    ∃ st, Reachable Sample.app st ∧ ¬ LifetimesAgree Sample.app st Sample.refreshStep := by
  refine ⟨performAll Sample.app Sample.passwordRun .empty, ⟨_, run_performAll _ _ _⟩, fun h => ?_⟩
  obtain ⟨⟨env, res⟩, hres⟩ := Option.isSome_iff_exists.mp (show (Sample.refreshStep.response
    Sample.app (performAll Sample.app Sample.passwordRun .empty)).isSome = true by decide)
  obtain ⟨a, ha, -, -, -, -, -, -, -, hexp, -⟩ := h env res hres
  obtain ⟨b, r, st', hissue⟩ := Op.response_eq_some.mp hres
  obtain rfl : env = Sample.env 9 5 := by cases hissue; rfl
  have hno : ∀ a ∈ (Sample.refreshStep.perform Sample.app
      (performAll Sample.app Sample.passwordRun .empty)).accessTokens,
      a.expires_at ≠ deadline Sample.app.expirationTimeAccessToken 9 := by decide
  exact hno a ha hexp

theorem lifetimes_of_runs_sample :
    (Along (Step Sample.app) (LifetimesAgree Sample.app) .empty Sample.passwordRun ↔
      Along (Step Sample.app) (NoSwap Sample.app) .empty Sample.passwordRun) ∧
    (Along (Step Sample.app) (NoSwap Sample.app) .empty Sample.passwordRun →
      ∀ now id a, AccessTokenRepoService.findForActiveState now id
          (performAll Sample.app Sample.passwordRun .empty) = some a →
        ∃ pre op post m env res, Sample.passwordRun = pre ++ op :: post ∧
          Run (Step Sample.app) .empty pre m ∧ op.response Sample.app m = some (env, res) ∧
            a.id = hex env.accessTokenBytes.toList ∧
              ∀ ms ∈ Sample.app.expirationTimeAccessToken, now ≤ env.now + ms) :=
  lifetimes_of_runs Sample.app_positiveLifetimes (run_performAll _ _ _)

end NestTemplate
