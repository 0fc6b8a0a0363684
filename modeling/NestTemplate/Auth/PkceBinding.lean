import NestTemplate.Auth.ClientAuthentication

/-!
# Codes that were minted for PKCE

Codes of both grants are rows of one table, and the request names the grant it
redeems a code under. A row minted for PKCE is the row with a challenge; the
authorization code grant redeems it without looking at the challenge.

* `pkce_binding`: in a run without such a redemption, every token pair for a
  PKCE code was asked for with a matching verifier.
-/

namespace NestTemplate

open Common

/-- The request carries a verifier of the challenge. -/
def CarriesVerifier (app : App) (req : Request) (challenge algorithm : String) : Prop :=
  ∃ payload v, req.body = some payload ∧ payload.get? "code_verifier" = some (.str v) ∧
    AuthorizationChallengeRepoService.compareChallengeAndVerifier app challenge v algorithm =
      .ok true

/-- Wherever a login of the run mints a code for PKCE and a later token request of the run obtains
    its pair by consuming the row, that request carried a verifier of the challenge. -/
def PkceBinding (app : App) (ops : List Op) : Prop :=
  ∀ pre env body mid env' req post s₀ row user authorization s₁ s₂ res s₃,
    ops = pre ++ .login env body :: (mid ++ .token env' req :: post) →
    Run (Step app) .empty pre s₀ →
    postLogin app env body s₀ = (.ok (row, user, authorization), s₁) →
    authorization.get? "grant_type" = some (.str GrantTypes.PKCE.text) →
    Run (Step app) s₁ mid s₂ →
    postToken app env' req s₂ = (.ok res, s₃) →
    row ∈ s₂.challenges → row ∉ s₃.challenges →
      CarriesVerifier app req (text authorization "code_challenge") (text authorization "algorithm")

/-- The step redeems no row with a challenge under the authorization code grant. -/
def KeepsGrant (app : App) (st : Store) (op : Op) : Prop :=
  ∀ env req payload record, op = .token env req → CodeRedeemable app env req st payload record →
    record.row.challenge = ""

/-- A code minted for PKCE has the challenge of the request, which is not empty. -/
theorem Minted.pkce {app : App} {env : Env} {body : Option Json} {st : Store} {token payload : Json}
    {user : UserModel} {authorization : Json} {g : GrantTypes} {row : AuthorizationChallengeModel}
    (hm : Minted env user authorization g row)
    (hlogin : LoginGranted app body st token payload user authorization)
    (hpkce : authorization.get? "grant_type" = some (.str GrantTypes.PKCE.text)) :
    row.challenge = text authorization "code_challenge" ∧
      row.algorithm = text authorization "algorithm" ∧ row.challenge ≠ "" := by
  obtain rfl : g = .PKCE := by
    have := hm.grant_type.symm.trans hpkce
    exact GrantTypes.text_injective (by simpa using this)
  obtain ⟨⟨c, hc, hne⟩, -⟩ := (hlogin.valid hm.grant_type).pkce hpkce
  refine ⟨hm.challenge, hm.algorithm, ?_⟩
  rw [hm.challenge]
  simpa [challengeOf, text_of_get? hc] using hne

/-- A token request that consumes a row with a challenge carries its verifier, unless the step
    redeems it under the authorization code grant. -/
theorem consumes_with_verifier {app : App} {env : Env} {req : Request} {st st' : Store}
    {res : BearerTokenResult} {row : AuthorizationChallengeModel}
    (hkeep : KeepsGrant app st (.token env req)) (hpost : postToken app env req st = (.ok res, st'))
    (hrow : row ∈ st.challenges) (hgone : row ∉ st'.challenges) (hne : row.challenge ≠ "") :
    CarriesVerifier app req row.challenge row.algorithm := by
  obtain ⟨hw, payload, g, user, client, m, hg, a, r, rfl, rfl, hi, -⟩ := postToken_eq_ok.mp hpost
  obtain ⟨-, -, -, -, hchallenges⟩ := Store.insertTokens_eq_ok hi
  rw [hchallenges] at hgone
  have same : ∀ record : ChallengeRecord, record.row ∈ st.challenges →
      row ∉ (st.deleteChallenge record.row.id).challenges → row = record.row := by
    intro record hrecord hgone
    refine Table.eq_of_key_eq hrow hrecord ?_
    by_contra hid
    exact hgone (Store.mem_deleteChallenge.mpr ⟨hrow, hid⟩)
  have hgt := GrantTypes.text_of_ofText? hg.grant_type
  cases hg.granted with
  | password => exact absurd hrow hgone
  | @pkce record hcode hworks hverifier =>
    obtain ⟨-, hrecord, -⟩ := AuthorizationChallengeRepoService.findByPk_eq_ok.mp hcode
    obtain rfl := same record hrecord hgone
    exact ⟨payload, _, (validate_eq_ok.mp hg.content).1,
      AccessTokenDto.code_verifier hg.content hgt, hverifier⟩
  | @code record hcode hworks hclient =>
    obtain ⟨-, hrecord, -⟩ := AuthorizationChallengeRepoService.findByPk_eq_ok.mp hcode
    obtain rfl := same record hrecord hgone
    exact absurd (hkeep env req payload record rfl ⟨hg.accept, hg.content, hgt, hcode, hclient, hw,
      hg.insertTokens_isOk.mp ⟨st', hi⟩, hworks⟩) hne

/-- **Main theorem**: a run whose steps redeem no row with a challenge under the authorization
    code grant binds every PKCE code to its verifier. -/
theorem pkce_binding {app : App} {ops : List Op} (hkeep : Along (Step app) (KeepsGrant app) .empty ops) :
    PkceBinding app ops := by
  intro pre env body mid env' req post s₀ row user authorization s₁ s₂ res s₃ hops hpre hlogin
    hpkce hmid hpost hrow hgone
  obtain ⟨⟨token, payload, hgranted⟩, ⟨g, hm⟩, -, -⟩ := postLogin_eq_ok.mp hlogin
  obtain ⟨hc, ha, hne⟩ := hm.pkce hgranted hpkce
  have hs₁ : Step app s₀ (.login env body) s₁ := by
    show s₁ = (postLogin app env body s₀).2
    rw [hlogin]
  have hrun : Run (Step app) .empty (pre ++ .login env body :: mid) s₂ :=
    Run.append_iff.mpr ⟨s₀, hpre, .cons hs₁ hmid⟩
  have hstep := hkeep (pre ++ .login env body :: mid) (.token env' req) post s₂
    (by rw [hops, List.append_assoc]; rfl) hrun
  rw [← hc, ← ha]
  exact consumes_with_verifier hstep hpost hrow hgone hne

namespace Sample

/-- A PKCE code, redeemed with its verifier. -/
def pkceRun : List Op :=
  clientRun .PKCE ++ .login (env 0 2) (some (loginBody (authorization 1 .PKCE))) ::
    ([] ++ .token (env 5 3) (exchange .PKCE
      [("code_verifier", "dBjftJeZ4CVP-mB92K27uhbUJU1p1r_wW1gFWFOEjXk")]) :: [])

/-- A PKCE code, redeemed under the other grant. -/
def crossRun : List Op :=
  clientRun .PKCE ++ .login (env 0 2) (some (loginBody (authorization 1 .PKCE))) ::
    ([] ++ .token (env 5 3) (exchange .AuthorizationCode
      [("client_id", (uuid 1).toString), ("client_secret", "guess")]) :: [])

end Sample

theorem pkce_binding_sample : PkceBinding Sample.app Sample.pkceRun := by
  refine pkce_binding (Along.of_forall fun op hop st env req payload record he hr => ?_)
  exfalso
  simp only [Sample.pkceRun, Sample.clientRun, List.cons_append, List.nil_append, List.mem_cons,
    List.not_mem_nil, or_false] at hop
  rcases hop with rfl | rfl | rfl | rfl <;> cases he
  have hbody := (validate_eq_ok.mp hr.content).1
  have hg := hr.grant_type
  rw [← Option.some.inj hbody] at hg
  revert hg
  decide

/-- A code minted for PKCE is redeemed without any verifier. -/
theorem pkce_code_without_verifier : ¬ PkceBinding Sample.app Sample.crossRun := by
  intro h
  obtain ⟨res, s₃, hpost⟩ := Action.returns_iff.mp (show Action.returns (postToken Sample.app
    (Sample.env 5 3) (Sample.exchange .AuthorizationCode
      [("client_id", (Sample.uuid 1).toString), ("client_secret", "guess")]))
    (Sample.codeStore .PKCE) = true by decide)
  have hgone : Sample.code .PKCE ∉ (postToken Sample.app (Sample.env 5 3)
      (Sample.exchange .AuthorizationCode [("client_id", (Sample.uuid 1).toString),
        ("client_secret", "guess")]) (Sample.codeStore .PKCE)).2.challenges := by decide
  rw [hpost] at hgone
  obtain ⟨payload, v, hbody, hv, -⟩ := h _ _ _ _ _ _ _ _ _ _ _ _ _ _ _ rfl
    (run_performAll _ _ _) (Sample.postLogin_clientStore (by decide)) rfl (.nil _) hpost
    (by decide) hgone
  cases hbody
  cases hv

end NestTemplate
