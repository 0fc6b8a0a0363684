import NestTemplate.Auth.Runs

/-!
# Who a bearer authenticates

A bearer carries an id and nothing else; access and refresh tokens are told
apart by the table that holds the id.

* `findUserByToken_eq_some`: the rows a bearer authenticates by.
* `eq_of_issued`, `no_access_token_of_refresh`, `no_access_token_of_rotated`:
  where generated ids do not repeat, an id names one token of the whole run.
* `bearer_authentication_exact`: the result about runs.
-/

namespace NestTemplate

open Common

/-- `verifyAsync` accepts what `signAsync` made and nothing else. -/
def App.JwtInverse (app : App) : Prop :=
  ∀ bearer id, app.verifyAsync bearer = some id ↔ bearer = app.signAsync id

/-- The access token authenticates its user at the time `now`. -/
structure AccessTokenModel.Active (a : AccessTokenModel) (st : Store) (now : ℕ) : Prop where
  expires_at : ∀ t ∈ a.expires_at, now ≤ t
  client : ∃ c ∈ st.clients, c.id = a.client_id ∧ c.is_revoked = false

/-- A bearer yields the user of the active access token whose id it carries. -/
theorem AuthService.findUserByToken_eq_some {app : App} {now : ℕ} {bearer : String} {st : Store}
    {user : UserModel} :
    AuthService.findUserByToken app now bearer st = .ok (some user) ↔
      user ∈ st.users ∧ ∃ a ∈ st.accessTokens, app.verifyAsync bearer = some a.id ∧
        a.user_id = some user.id ∧ a.Active st now := by
  unfold findUserByToken decode
  cases hverify : app.verifyAsync bearer with
  | none => simp [bind, Except.bind]
  | some id =>
    simp only [Option.elim, bind, Except.bind, pure, Except.pure]
    constructor
    · intro h
      cases hfind : AccessTokenRepoService.findForActiveState now id st with
      | none => simp [hfind] at h
      | some a =>
        obtain ⟨ha, hid, hexp, hclient⟩ := AccessTokenRepoService.findForActiveState_eq_some.mp hfind
        cases huser : a.user_id with
        | none => simp [hfind, huser] at h
        | some i =>
          simp only [hfind, huser, getLoggedInUser, UserRepository.findOrFail] at h
          cases hu : st.users.find? i with
          | none => simp [hu] at h
          | some u =>
            obtain rfl : u = user := by simpa [hu] using h
            obtain ⟨hmem, rfl⟩ := Table.mem_of_find? hu
            exact ⟨hmem, a, ha, by rw [hid], huser, hexp, hclient⟩
    · rintro ⟨hmem, a, ha, hid, huser, hexp, hclient⟩
      have hfind := AccessTokenRepoService.findForActiveState_eq_some.mpr
        ⟨ha, (Option.some.inj hid).symm, hexp, hclient⟩
      simp only [hfind, huser, getLoggedInUser, UserRepository.findOrFail, Table.find?_key hmem]

/-! ## The ids of a run -/

/-- The ids of the pair a step issues. -/
def Op.issuedIds (app : App) (op : Op) (st : Store) : List String :=
  match op.response app st with
  | some (env, _) => [hex env.accessTokenBytes.toList, hex env.refreshTokenBytes.toList]
  | none => []

/-- The ids a run issues, of both tables, in their order. -/
def issuedIds (app : App) : Store → List Op → List String
  | _, [] => []
  | st, op :: ops => op.issuedIds app st ++ issuedIds app (op.perform app st) ops

section Ids

variable {app : App} {st : Store}

theorem Issues.issuedIds {op : Op} {env : Env} {a : AccessTokenModel} {r : RefreshTokenModel}
    {res : BearerTokenResult} {st' : Store} (h : Issues app st op env a r res st') :
    op.issuedIds app st = [a.id, r.id] := by
  have hres := Op.response_eq_some.mpr ⟨a, r, st', h⟩
  unfold Op.issuedIds
  rw [hres]
  cases h with
  | token hw hg ha hr hi => rw [hr, ha]; rfl
  | refresh hw hd hg ho eo ha hr hi => rw [hr, ha]; rfl

/-- The ids of a run are those of its parts. -/
theorem issuedIds_append {pre post : List Op} {m : Store} (h : Run (Step app) st pre m) :
    issuedIds app st (pre ++ post) = issuedIds app st pre ++ issuedIds app m post := by
  induction h with
  | nil => rfl
  | cons hstep _ ih =>
    rw [List.cons_append, issuedIds, issuedIds, ← hstep, ih, List.append_assoc]

/-- An access token that is there after a run was there before it, or the run issued its id. -/
theorem id_mem_issuedIds {ops : List Op} {st' : Store} (hrun : Run (Step app) st ops st')
    {a : AccessTokenModel} (ha : a ∈ st'.accessTokens) :
    a ∈ st.accessTokens ∨ a.id ∈ issuedIds app st ops := by
  rcases run_accessTokens hrun ha with h | ⟨pre, op, post, m, env, r, res, m', rfl, hpre, hissue⟩
  · exact .inl h
  · right
    rw [issuedIds_append hpre, issuedIds, hissue.issuedIds]
    simp

end Ids

/-! ## Tokens of the past -/

/-- A step of the run issued the pair. -/
def Issued (app : App) (ops : List Op) (a : AccessTokenModel) (r : RefreshTokenModel) : Prop :=
  ∃ pre op post m env res m', ops = pre ++ op :: post ∧ Run (Step app) .empty pre m ∧
    Issues app m op env a r res m'

/-- A refresh of the run removed the access token. -/
def RotatedOut (app : App) (ops : List Op) (old : AccessTokenModel) : Prop :=
  ∃ pre env req post m res m', ops = pre ++ .refresh env req :: post ∧
    Run (Step app) .empty pre m ∧ postRefresh app env req m = (.ok res, m') ∧
      old ∈ m.accessTokens ∧ old ∉ m'.accessTokens

section Past

variable {app : App} {ops : List Op} {st : Store} {a b : AccessTokenModel} {r : RefreshTokenModel}

/-- Where a step of a run issues ids, the ids before it, its own and those after it are the ids of
    the run. -/
theorem nodup_split {pre post : List Op} {op : Op} {m : Store}
    (hids : (issuedIds app .empty (pre ++ op :: post)).Nodup) (hpre : Run (Step app) .empty pre m) :
    (op.issuedIds app m).Nodup ∧
      (∀ id ∈ op.issuedIds app m, id ∉ issuedIds app .empty pre ∧
        id ∉ issuedIds app (op.perform app m) post) ∧
      ∀ id ∈ issuedIds app .empty pre, id ∉ issuedIds app (op.perform app m) post := by
  rw [issuedIds_append hpre, issuedIds, List.nodup_append', List.nodup_append'] at hids
  obtain ⟨-, ⟨hop, -, hpost⟩, hpre⟩ := hids
  refine ⟨hop, fun id hid => ⟨fun h => ?_, fun h => ?_⟩, fun id hid h => ?_⟩
  · exact hpre h (List.mem_append_left _ hid)
  · exact hpost hid h
  · exact hpre hid (List.mem_append_right _ h)

/-- An access token at the end of a run was there after any of its steps, or its id was issued
    after that. -/
theorem mem_or_issued_after {pre post : List Op} {op : Op} {m : Store}
    (hrun : Run (Step app) .empty (pre ++ op :: post) st) (hpre : Run (Step app) .empty pre m)
    (hb : b ∈ st.accessTokens) :
    b ∈ (op.perform app m).accessTokens ∨ b.id ∈ issuedIds app (op.perform app m) post := by
  obtain ⟨m₀, hpre₀, hrest⟩ := Run.append_iff.mp hrun
  have hm : m₀ = m := hpre₀.unique (fun _ _ _ _ h h' => h.trans h'.symm) hpre
  obtain ⟨m₁, hstep, hpost⟩ := Run.cons_iff.mp hrest
  rw [hstep, hm] at hpost
  exact id_mem_issuedIds hpost hb

/-- The id of an access token of a run is one the run issued. -/
theorem id_mem_of_run (hrun : Run (Step app) .empty ops st) (ha : a ∈ st.accessTokens) :
    a.id ∈ issuedIds app .empty ops :=
  (id_mem_issuedIds hrun ha).resolve_left (by simp [Store.empty])

/-- The id of an issued access token is the id of no other. -/
theorem eq_of_issued (hrun : Run (Step app) .empty ops st) (hids : (issuedIds app .empty ops).Nodup)
    (hissued : Issued app ops a r) (hb : b ∈ st.accessTokens) (hid : b.id = a.id) : b = a := by
  obtain ⟨pre, op, post, m, env, res, m', rfl, hpre, hissue⟩ := hissued
  obtain ⟨-, hop, -⟩ := nodup_split hids hpre
  obtain ⟨-, hafter⟩ := hop a.id (by rw [hissue.issuedIds]; simp)
  obtain ⟨ha, -, hperform⟩ := hissue.mem
  have hb' := (mem_or_issued_after hrun hpre hb).resolve_right (hid ▸ hafter)
  rw [hperform] at hb'
  exact Table.eq_of_key_eq hb' ha hid

/-- Every refresh token of a run was issued by one of its steps. -/
theorem issued_of_refreshToken (hrun : Run (Step app) .empty ops st) (hr : r ∈ st.refreshTokens) :
    ∃ a, Issued app ops a r := by
  obtain ⟨pre, op, post, m, env, a, res, m', h⟩ :=
    (run_refreshTokens hrun hr).resolve_left (by simp [Store.empty])
  exact ⟨a, pre, op, post, m, env, res, m', h⟩

/-- The id of an issued refresh token is the id of no access token. -/
theorem no_access_token_of_refresh (hrun : Run (Step app) .empty ops st)
    (hids : (issuedIds app .empty ops).Nodup) (hissued : Issued app ops a r)
    (hb : b ∈ st.accessTokens) : b.id ≠ r.id := by
  intro hid
  obtain ⟨pre, op, post, m, env, res, m', rfl, hpre, hissue⟩ := hissued
  obtain ⟨hnodup, hop, -⟩ := nodup_split hids hpre
  obtain ⟨hbefore, hafter⟩ := hop r.id (by rw [hissue.issuedIds]; simp)
  have hb' := (mem_or_issued_after hrun hpre hb).resolve_right (hid ▸ hafter)
  rcases perform_accessTokens hb' with hm | ⟨env', r', res', m₁, hissue'⟩
  · exact hbefore (hid ▸ id_mem_of_run hpre hm)
  · have hpair := hissue.issuedIds.symm.trans hissue'.issuedIds
    rw [hissue.issuedIds] at hnodup
    have hne : a.id ≠ r.id := by simpa using hnodup
    exact hne ((List.cons.inj hpair).1.trans hid)

/-- The id of an access token that a refresh removed is the id of no access token. -/
theorem no_access_token_of_rotated (hrun : Run (Step app) .empty ops st)
    (hids : (issuedIds app .empty ops).Nodup) (hrotated : RotatedOut app ops a)
    (hb : b ∈ st.accessTokens) : b.id ≠ a.id := by
  intro hid
  obtain ⟨pre, env, req, post, m, res, m', rfl, hpre, hpost, ha, hgone⟩ := hrotated
  obtain ⟨-, hop, hbefore⟩ := nodup_split hids hpre
  have ha' := id_mem_of_run hpre ha
  have hperform : (Op.refresh env req).perform app m = m' := by rw [Op.perform, hpost]
  have hb' := (mem_or_issued_after hrun hpre hb).resolve_right (hid ▸ hbefore a.id ha')
  rcases perform_accessTokens hb' with hm | ⟨env', r', res', m₁, hissue⟩
  · obtain rfl := Table.eq_of_key_eq hm ha hid
    exact hgone (hperform ▸ hb')
  · exact (hop b.id (by rw [hissue.issuedIds]; simp)).1 (hid ▸ ha')

end Past

/-- The bearer authenticates nobody. -/
def NoUser (app : App) (now : ℕ) (bearer : String) (st : Store) : Prop :=
  ∀ user, AuthService.findUserByToken app now bearer st ≠ .ok (some user)

/-- **Main theorem**: in every run that repeats no id, a bearer authenticates the user of the
    active access token it was made for; the bearer of a refresh token, of an access token that
    was rotated out and of an expired one authenticates nobody. -/
theorem bearer_authentication_exact {app : App} (hjwt : app.JwtInverse) {ops : List Op} {st : Store}
    (hrun : Run (Step app) .empty ops st) (hids : (issuedIds app .empty ops).Nodup) (now : ℕ) :
    (∀ bearer user, AuthService.findUserByToken app now bearer st = .ok (some user) ↔
      user ∈ st.users ∧ ∃ a ∈ st.accessTokens, bearer = app.signAsync a.id ∧
        a.user_id = some user.id ∧ a.Active st now) ∧
    (∀ r, r ∈ st.refreshTokens ∨ (∃ a, Issued app ops a r) →
      NoUser app now (app.signAsync r.id) st) ∧
    (∀ old, RotatedOut app ops old → NoUser app now (app.signAsync old.id) st) ∧
    ∀ a r t, Issued app ops a r → a.expires_at = some t → t < now →
      NoUser app now (app.signAsync a.id) st := by
  have hread : ∀ id user, AuthService.findUserByToken app now (app.signAsync id) st = .ok (some user) →
      ∃ b ∈ st.accessTokens, b.id = id ∧ b.Active st now := by
    intro id user h
    obtain ⟨-, b, hb, hverify, -, hactive⟩ := AuthService.findUserByToken_eq_some.mp h
    have hid : app.verifyAsync (app.signAsync id) = some id := (hjwt _ _).mpr rfl
    exact ⟨b, hb, (Option.some.inj (hid.symm.trans hverify)).symm, hactive⟩
  refine ⟨fun bearer user => ?_, fun r hr user h => ?_, fun old hrotated user h => ?_,
    fun a r t hissued hexp hlate user h => ?_⟩
  · rw [AuthService.findUserByToken_eq_some]
    simp only [hjwt bearer]
  · obtain ⟨a, hissued⟩ := hr.elim (issued_of_refreshToken hrun) id
    obtain ⟨b, hb, hid, -⟩ := hread _ _ h
    exact no_access_token_of_refresh hrun hids hissued hb hid
  · obtain ⟨b, hb, hid, -⟩ := hread _ _ h
    exact no_access_token_of_rotated hrun hids hrotated hb hid
  · obtain ⟨b, hb, hid, hactive⟩ := hread _ _ h
    rw [eq_of_issued hrun hids hissued hb hid] at hactive
    have := hactive.expires_at t hexp
    omega

namespace Sample

theorem jwtInverse : app.JwtInverse := by
  intro bearer id
  show (if "eyJhbGciOiJIUzI1NiJ9.".toList.isPrefixOf bearer.toList then
    some (String.ofList (bearer.toList.drop 21)) else none) = some id ↔
      bearer = "eyJhbGciOiJIUzI1NiJ9." ++ id
  have hlength : "eyJhbGciOiJIUzI1NiJ9.".toList.length = 21 := by decide
  constructor
  · intro h
    split at h
    · rename_i hprefix
      obtain ⟨rest, hrest⟩ := List.isPrefixOf_iff_prefix.mp hprefix
      rw [← hrest, ← hlength, List.drop_left] at h
      cases h
      rw [← String.ofList_toList (s := bearer), ← hrest, String.ofList_append]
      rfl
    · cases h
  · rintro rfl
    rw [String.toList_append, if_pos (List.isPrefixOf_iff_prefix.mpr ⟨_, rfl⟩), ← hlength,
      List.drop_left, String.ofList_toList]

/-- As `env now n`, with other random bytes for the refresh token. -/
def pairEnv (now : ℕ) (n m : Fin 16) : Env :=
  { env now n with refreshTokenBytes := Vector.replicate 40 (UInt8.ofNat m) }

/-- Tokens `2` and `3` for the user's password at time 5. -/
def pairRun : List Op := clientRun .ImplicitPassword ++ [.token (pairEnv 5 2 3) passwordRequest]

/-- The access token `2`. -/
def firstToken : AccessTokenModel :=
  (pairEnv 5 2 3).accessToken (uuid 1) (some 1) (some 1005)

/-- The client presents the refresh token `3`. -/
def rotationRequest : Request :=
  request [("client_id", (uuid 1).toString), ("client_secret", secret 1),
    ("refresh_token", app.signAsync (hex (pairEnv 5 2 3).refreshTokenBytes.toList))]

/-- The pair rotated at time 6. -/
def rotationRun : List Op := pairRun ++ [.refresh (pairEnv 6 4 5) rotationRequest]

theorem rotatedOut : RotatedOut app rotationRun firstToken := by
  obtain ⟨res, m', hpost⟩ := Action.returns_iff.mp (show Action.returns
    (postRefresh app (pairEnv 6 4 5) rotationRequest) (performAll app pairRun .empty) = true by
      decide)
  have hgone : firstToken ∉
      (postRefresh app (pairEnv 6 4 5) rotationRequest
        (performAll app pairRun .empty)).2.accessTokens := by decide
  rw [hpost] at hgone
  exact ⟨pairRun, _, _, [], _, res, m', rfl, run_performAll _ _ _, hpost, by decide, hgone⟩

end Sample

theorem bearer_authentication_exact_sample :
    NoUser Sample.app 6 (Sample.app.signAsync Sample.firstToken.id)
      (performAll Sample.app Sample.rotationRun .empty) :=
  (bearer_authentication_exact Sample.jwtInverse (run_performAll _ _ _) (by decide)
    6).2.2.1 _ Sample.rotatedOut

end NestTemplate
