import NestTemplate.Auth.Runs

/-!
# What a token request does to the token tables

The inserts, the delete and the two signings of a request are spread over the
controller and the two repositories, all in the transaction that
`TransactionInterceptor` opens.

* `postToken_frame`, `postRefresh_frame`: the exact change of a request that succeeds.
* `token_requests_all_or_nothing`: with the other half, that a request that
  fails changes neither table, wherever it fails.
-/

namespace NestTemplate

open Common

/-- Both token tables are as before. -/
structure SameTokens (st st' : Store) : Prop where
  accessTokens : st'.accessTokens = st.accessTokens
  refreshTokens : st'.refreshTokens = st.refreshTokens

/-- The pair is new to the store, and the refresh token references the access token. -/
structure NewPair (st : Store) (a : AccessTokenModel) (r : RefreshTokenModel) : Prop where
  accessToken : ∀ b ∈ st.accessTokens, b.id ≠ a.id
  refreshToken : ∀ x ∈ st.refreshTokens, x.id ≠ r.id
  references : r.access_token_id = a.id

/-- The tables have the pair more, and no other change. -/
structure PairAdded (st : Store) (a : AccessTokenModel) (r : RefreshTokenModel) (st' : Store) :
    Prop extends NewPair st a r where
  accessTokens : ∀ b, b ∈ st'.accessTokens ↔ b = a ∨ b ∈ st.accessTokens
  refreshTokens : ∀ x, x ∈ st'.refreshTokens ↔ x = r ∨ x ∈ st.refreshTokens

/-- The tables have the pair in the place of `old` and of all refresh tokens that reference it, and
    no other change. -/
structure PairReplaced (st : Store) (old a : AccessTokenModel) (r : RefreshTokenModel)
    (st' : Store) : Prop extends NewPair st a r where
  old_mem : old ∈ st.accessTokens
  client_id : a.client_id = old.client_id
  user_id : a.user_id = old.user_id
  accessTokens : ∀ b, b ∈ st'.accessTokens ↔ b = a ∨ (b ∈ st.accessTokens ∧ b ≠ old)
  refreshTokens : ∀ x, x ∈ st'.refreshTokens ↔
    x = r ∨ (x ∈ st.refreshTokens ∧ x.access_token_id ≠ old.id)

/-- The refresh token is the one whose bearer the request carries. -/
def Presents (app : App) (req : Request) (st : Store) (current : RefreshTokenModel) : Prop :=
  ∃ payload, req.body = some payload ∧ current ∈ st.refreshTokens ∧
    app.verifyAsync (text payload "refresh_token") = some current.id

/-- Every refresh token references an access token. -/
def ReferencesExist (st : Store) : Prop :=
  ∀ r ∈ st.refreshTokens, ∃ a ∈ st.accessTokens, a.id = r.access_token_id

section

variable {app : App} {env : Env} {req : Request} {st st' : Store} {res : BearerTokenResult}

theorem NewPair.of_insertTokens {m : Store} {a : AccessTokenModel} {r : RefreshTokenModel}
    (href : r.access_token_id = a.id) (h : st.insertTokens a r = .ok m) : NewPair st a r := by
  obtain ⟨⟨ha, -⟩, hr⟩ := (Store.insertTokens_isOk href).mp ⟨m, h⟩
  exact ⟨ha, hr, href⟩

/-- A successful `POST /oauth/token` adds a pair. -/
theorem postToken_frame (h : postToken app env req st = (.ok res, st')) :
    ∃ a r, PairAdded st a r st' := by
  obtain ⟨-, payload, g, user, client, m, hg, a, r, -, hr, hi, -⟩ := postToken_eq_ok.mp h
  obtain ⟨-, -, -, -, hat, hrt⟩ := hg.granted.frame
  obtain ⟨hma, hmr, -⟩ := Store.insertTokens_eq_ok hi
  have hnew := NewPair.of_insertTokens (by rw [hr]; rfl) hi
  refine ⟨a, r, ⟨⟨?_, ?_, hnew.references⟩, ?_, ?_⟩⟩
  · exact hat ▸ hnew.accessToken
  · exact hrt ▸ hnew.refreshToken
  · exact hat ▸ hma
  · exact hrt ▸ hmr

/-- A successful `POST /oauth/refresh` replaces the access token of the token it presents. -/
theorem postRefresh_frame (h : postRefresh app env req st = (.ok res, st')) :
    ∃ current old a r, Presents app req st current ∧ old.id = current.access_token_id ∧
      PairReplaced st old a r st' := by
  obtain ⟨-, -, payload, client, current, hg, old, ho, eo, a, r, ha, hr, ⟨m, hi, rfl⟩, -⟩ :=
    postRefresh_eq_ok.mp h
  obtain ⟨hma, hmr, -⟩ := Store.insertTokens_eq_ok hi
  have hnew := NewPair.of_insertTokens (by rw [hr]; rfl) hi
  have hne : a.id ≠ old.id := (hnew.accessToken old ho).symm
  refine ⟨current, old, a, r, ⟨payload, (validate_eq_ok.mp hg.content).1, hg.mem, hg.bearer⟩, eo,
    ⟨hnew, ho, by rw [ha]; rfl, by rw [ha]; rfl, fun b => ?_, fun x => ?_⟩⟩
  · rw [Store.mem_deleteAccessToken, hma]
    constructor
    · rintro ⟨rfl | hb, hid⟩
      · exact .inl rfl
      · exact .inr ⟨hb, fun heq => hid (by rw [heq])⟩
    · rintro (rfl | ⟨hb, hbo⟩)
      · exact ⟨.inl rfl, hne⟩
      · exact ⟨.inr hb, fun hid => hbo (Table.eq_of_key_eq hb ho hid)⟩
  · rw [Store.mem_deleteAccessToken_refreshTokens, hmr]
    constructor
    · rintro ⟨rfl | hx, hid⟩
      · exact .inl rfl
      · exact .inr ⟨hx, hid⟩
    · rintro (rfl | ⟨hx, hid⟩)
      · exact ⟨.inl rfl, hnew.references ▸ hne⟩
      · exact ⟨.inr hx, hid⟩

/-- **Main theorem**: whichever of its steps fail, a token request changes neither table or
    exactly what it stands for, and every refresh token still references an access token. -/
theorem token_requests_all_or_nothing (app : App) (env : Env) (req : Request) (st : Store) :
    (∀ e st', postToken app env req st = (.error e, st') → SameTokens st st') ∧
    (∀ res st', postToken app env req st = (.ok res, st') → ∃ a r, PairAdded st a r st') ∧
    (∀ e st', postRefresh app env req st = (.error e, st') → SameTokens st st') ∧
    (∀ res st', postRefresh app env req st = (.ok res, st') →
      ∃ current old a r, Presents app req st current ∧ old.id = current.access_token_id ∧
        PairReplaced st old a r st') ∧
    ReferencesExist (postToken app env req st).2 ∧ ReferencesExist (postRefresh app env req st).2 := by
  refine ⟨fun e st' h => ?_, fun res st' h => postToken_frame h, fun e st' h => ?_,
    fun res st' h => postRefresh_frame h, ?_, ?_⟩
  · have hk := OnlyChallenges.of_postToken_error h
    exact ⟨hk.accessTokens, hk.refreshTokens⟩
  · rw [postRefresh_error h]
    exact ⟨rfl, rfl⟩
  · exact (postToken app env req st).2.refreshToken_accessToken
  · exact (postRefresh app env req st).2.refreshToken_accessToken

end

end NestTemplate
