import NestTemplate.Auth.TokenFrames

/-!
# Token pairs and the logins behind them

Every access token is made together with a refresh token, and a rotation
replaces both. So the two tables stay in step, and what they hold of a user at a
client is the number of logins.

* `token_change`: what any step does to the token tables.
* `tokens_paired`: in every reachable store each access token has one refresh
  token.
* `Logins`: the abstract model, a bag of (client, user) pairs, which only a
  successful `POST /oauth/token` and the deletes change.
* `run_logins`: the token tables refine the bag, over every run.
-/

namespace NestTemplate

open Common

/-! ## What a step does to the token tables -/

namespace Store

theorem mem_deleteUser {st : Store} {id : ℕ} {a : AccessTokenModel} :
    a ∈ (st.deleteUser id).accessTokens ↔ a ∈ st.accessTokens ∧ a.user_id ≠ some id := by
  rw [deleteUser, mem_accessTokens_retain]
  refine and_congr_right fun ha => ?_
  obtain ⟨c, hc, ec⟩ := st.accessToken_client a ha
  constructor
  · rintro ⟨-, -, hu⟩ hid
    obtain ⟨u, -, hne, rfl⟩ := hu id hid
    simp at hne
  · intro hid
    refine ⟨rfl, ⟨c, hc, rfl, ec⟩, fun i hi => ?_⟩
    obtain ⟨u, hu, eu⟩ := st.accessToken_user a ha i hi
    refine ⟨u, hu, ?_, eu⟩
    rw [eu]
    exact decide_eq_true fun h => hid (h ▸ hi)

theorem mem_deleteClient {st : Store} {id : Uuid} {a : AccessTokenModel} :
    a ∈ (st.deleteClient id).accessTokens ↔ a ∈ st.accessTokens ∧ a.client_id ≠ id := by
  rw [deleteClient, mem_accessTokens_retain]
  refine and_congr_right fun ha => ?_
  constructor
  · rintro ⟨-, ⟨c, -, hne, ec⟩, -⟩ hid
    rw [ec] at hne
    exact absurd hid (of_decide_eq_true hne)
  · intro hid
    obtain ⟨c, hc, ec⟩ := st.accessToken_client a ha
    refine ⟨rfl, ⟨c, hc, ?_, ec⟩, fun i hi => ?_⟩
    · rw [ec]
      exact decide_eq_true hid
    · obtain ⟨u, hu, eu⟩ := st.accessToken_user a ha i hi
      exact ⟨u, hu, rfl, eu⟩

end Store

/-- `st'` has the access tokens of `st` that pass `p`, with their refresh tokens. -/
structure Retained (p : AccessTokenModel → Prop) (st st' : Store) : Prop where
  accessTokens : ∀ a, a ∈ st'.accessTokens ↔ a ∈ st.accessTokens ∧ p a
  refreshTokens : ∀ r, r ∈ st'.refreshTokens ↔
    r ∈ st.refreshTokens ∧ ∃ a ∈ st'.accessTokens, a.id = r.access_token_id

theorem Retained.deleteUser (st : Store) (id : ℕ) :
    Retained (·.user_id ≠ some id) st (st.deleteUser id) :=
  ⟨fun _ => Store.mem_deleteUser, fun _ => Store.mem_refreshTokens_retain⟩

theorem Retained.deleteClient (st : Store) (id : Uuid) :
    Retained (·.client_id ≠ id) st (st.deleteClient id) :=
  ⟨fun _ => Store.mem_deleteClient, fun _ => Store.mem_refreshTokens_retain⟩

/-- What a step does to the token tables. -/
inductive TokenChange (app : App) (st : Store) : Op → Store → Prop
  | same {op : Op} {st' : Store} (hu : ∀ id, op ≠ .deleteUser id)
      (hc : ∀ id, op ≠ .deleteClient id) (hres : op.response app st = none)
      (h : SameTokens st st') : TokenChange app st op st'
  /-- The guard let the request through for `user` and `client`, and a pair was added. -/
  | issued {env : Env} {req : Request} {user : UserModel} {client : ClientModel}
      {a : AccessTokenModel} {r : RefreshTokenModel} {res : BearerTokenResult} {st' : Store}
      (hguard : (AccessTokenService.validate app env req st).1 = .ok (user, client))
      (hissue : Issues app st (.token env req) env a r res st') (hclient : a.client_id = client.id)
      (huser : a.user_id = some user.id) (h : PairAdded st a r st') :
      TokenChange app st (.token env req) st'
  /-- `current` was presented, and its pair replaced. -/
  | rotated {env : Env} {req : Request} {current : RefreshTokenModel} {old a : AccessTokenModel}
      {r : RefreshTokenModel} {res : BearerTokenResult} {st' : Store}
      (hissue : Issues app st (.refresh env req) env a r res st')
      (hpresents : Presents app req st current) (hold : old.id = current.access_token_id)
      (h : PairReplaced st old a r st') : TokenChange app st (.refresh env req) st'
  | deletedUser {id : ℕ} {st' : Store} (h : Retained (·.user_id ≠ some id) st st') :
      TokenChange app st (.deleteUser id) st'
  | deletedClient {id : Uuid} {st' : Store} (h : Retained (·.client_id ≠ id) st st') :
      TokenChange app st (.deleteClient id) st'

section

variable {app : App} {op : Op} {st st' : Store} {env : Env} {a : AccessTokenModel}
  {r : RefreshTokenModel} {res : BearerTokenResult}

/-- The pair a step issues is new to the store. -/
theorem Issues.newPair (h : Issues app st op env a r res st') : NewPair st a r := by
  cases h with
  | token hw hg ha hr hi =>
    obtain ⟨-, -, -, -, hat, hrt⟩ := hg.granted.frame
    have hnew := NewPair.of_insertTokens (by rw [hr]; rfl) hi
    exact ⟨hat ▸ hnew.accessToken, hrt ▸ hnew.refreshToken, hnew.references⟩
  | refresh hw hf hg ho eo ha hr hi => exact NewPair.of_insertTokens (by rw [hr]; rfl) hi

theorem Issues.notMem (h : Issues app st op env a r res st') :
    a ∉ st.accessTokens ∧ r ∉ st.refreshTokens :=
  ⟨fun ha => h.newPair.accessToken a ha rfl, fun hr => h.newPair.refreshToken r hr rfl⟩

theorem Issues.postToken {req : Request} (h : Issues app st (.token env req) env a r res st') :
    postToken app env req st = (.ok res, st') := by
  cases h with
  | token hw hg ea er hi =>
    exact postToken_eq_ok.mpr ⟨hw, _, _, _, _, _, hg, _, _, ea, er, hi, rfl⟩

theorem Issues.postRefresh {req : Request} (h : Issues app st (.refresh env req) env a r res st') :
    postRefresh app env req st = (.ok res, st') := by
  cases h with
  | refresh hw hf hg ho eo ea er hi =>
    exact postRefresh_eq_ok.mpr ⟨hw, hf, _, _, _, hg, _, ho, eo, _, _, ea, er, ⟨_, hi, rfl⟩, rfl⟩

theorem Issues.pairAdded {req : Request} (h : Issues app st (.token env req) env a r res st') :
    PairAdded st a r st' := by
  obtain ⟨ha, hr, -⟩ := h.mem
  obtain ⟨hna, hnr⟩ := h.notMem
  obtain ⟨a', r', hadded⟩ := postToken_frame h.postToken
  obtain rfl := ((hadded.accessTokens a).mp ha).resolve_right hna
  obtain rfl := ((hadded.refreshTokens r).mp hr).resolve_right hnr
  exact hadded

theorem Issues.pairReplaced {req : Request} (h : Issues app st (.refresh env req) env a r res st') :
    ∃ current old, Presents app req st current ∧ old.id = current.access_token_id ∧
      PairReplaced st old a r st' := by
  obtain ⟨ha, hr, -⟩ := h.mem
  obtain ⟨hna, hnr⟩ := h.notMem
  obtain ⟨current, old, a', r', hpresents, hold, hreplaced⟩ := postRefresh_frame h.postRefresh
  obtain rfl := ((hreplaced.accessTokens a).mp ha).resolve_right fun h => hna h.1
  obtain rfl := ((hreplaced.refreshTokens r).mp hr).resolve_right fun h => hnr h.1
  exact ⟨current, old, hpresents, hold, hreplaced⟩

theorem SameTokens.of_write {f : Store → Except Failure Store}
    (hf : ∀ s t, f s = .ok t → t.accessTokens = s.accessTokens ∧ t.refreshTokens = s.refreshTokens)
    (st : Store) : SameTokens st (Action.write f st).2 := by
  unfold Action.write
  cases h : f st with
  | ok t => exact ⟨(hf st t h).1, (hf st t h).2⟩
  | error e => exact ⟨rfl, rfl⟩

/-- Everything a step can do to the token tables. -/
theorem token_change (app : App) (op : Op) (st : Store) :
    TokenChange app st op (op.perform app st) := by
  cases op with
  | createUser user =>
    exact .same (by simp) (by simp) rfl (.of_write (fun s t h => (Store.insertUser_eq_ok h).2.2.2) st)
  | updateUser id email password =>
    exact .same (by simp) (by simp) rfl (.of_write (fun s t h => (Store.updateUser_eq_ok h).2.2) st)
  | deleteUser id => exact .deletedUser (.deleteUser st id)
  | createClient env name grantType =>
    refine .same (by simp) (by simp) rfl ?_
    have hw : ∀ c, SameTokens st (Action.write (·.insertClient c) st).2 :=
      fun c => .of_write (fun s t h => (Store.insertClient_eq_ok h).2.2.2) st
    show SameTokens st (((Action.write _ : Db Unit) >>= _) st).2
    rw [Action.bind_run]
    split <;> rename_i heq <;> exact congrArg Prod.snd heq ▸ hw _
  | updateClient id name secret is_revoked => exact .same (by simp) (by simp) rfl ⟨rfl, rfl⟩
  | revokeClient id =>
    refine .same (by simp) (by simp) rfl ?_
    unfold Op.perform
    dsimp only
    split <;> exact ⟨rfl, rfl⟩
  | deleteClient id => exact .deletedClient (.deleteClient st id)
  | login env body =>
    have hk := OnlyChallenges.keeps_postLogin app env body st
    exact .same (by simp) (by simp) rfl ⟨hk.accessTokens, hk.refreshTokens⟩
  | token env req =>
    rcases hp : postToken app env req st with ⟨e | res, st'⟩
    · have hk := OnlyChallenges.of_postToken_error hp
      rw [Op.perform, hp]
      exact .same (by simp) (by simp) (by rw [Op.response, hp]; rfl) ⟨hk.accessTokens, hk.refreshTokens⟩
    · obtain ⟨hw, payload, g, user, client, m, hg, a, r, ha, hr, hi, rfl⟩ := postToken_eq_ok.mp hp
      have hissue : Issues app st (.token env req) env a r _ st' := .token hw hg ha hr hi
      have hguard := AccessTokenService.validate_eq_ok.mpr
        ⟨hg.accept, payload, g, hg.content, hg.grant_type, hg.granted⟩
      rw [Op.perform, hp]
      exact .issued (by rw [hguard]) hissue (by rw [ha]; rfl) (by rw [ha]; rfl) hissue.pairAdded
  | refresh env req =>
    rcases hp : postRefresh app env req st with ⟨e | res, st'⟩
    · rw [Op.perform, hp, postRefresh_error hp]
      exact .same (by simp) (by simp) (by rw [Op.response, hp]; rfl) ⟨rfl, rfl⟩
    · obtain ⟨hw, hf, payload, client, current, hg, old, ho, eo, a, r, ha, hr, ⟨m, hi, rfl⟩, rfl⟩ :=
        postRefresh_eq_ok.mp hp
      have hissue : Issues app st (.refresh env req) env a r _ (m.deleteAccessToken old.id) :=
        .refresh hw hf hg ho eo ha hr hi
      obtain ⟨current', old', hpresents, hold, hreplaced⟩ := hissue.pairReplaced
      rw [Op.perform, hp]
      exact .rotated hissue hpresents hold hreplaced

/-! ## Pairs -/

/-- Every access token has exactly one refresh token. -/
def Paired (st : Store) : Prop :=
  ∀ a ∈ st.accessTokens, ∃! r, r ∈ st.refreshTokens ∧ r.access_token_id = a.id

theorem paired_empty : Paired Store.empty := by
  intro a ha
  cases ha

theorem Paired.same (h : Paired st) (hs : SameTokens st st') : Paired st' := by
  unfold Paired
  rw [hs.accessTokens, hs.refreshTokens]
  exact h

/-- A refresh token from before the pair references another access token. -/
theorem NewPair.references_old (h : NewPair st a r) {x : RefreshTokenModel}
    (hx : x ∈ st.refreshTokens) : x.access_token_id ≠ a.id := by
  obtain ⟨b, hb, e⟩ := st.refreshToken_accessToken x hx
  rw [← e]
  exact h.accessToken b hb

theorem Paired.pairAdded (h : Paired st) (hadd : PairAdded st a r st') : Paired st' := by
  intro b hb
  rcases (hadd.accessTokens b).mp hb with rfl | hb
  · refine ⟨r, ⟨(hadd.refreshTokens r).mpr (.inl rfl), hadd.references⟩, ?_⟩
    rintro x ⟨hx, ex⟩
    refine ((hadd.refreshTokens x).mp hx).resolve_right fun hx => ?_
    exact hadd.toNewPair.references_old hx ex
  · obtain ⟨x, ⟨hx, ex⟩, honly⟩ := h b hb
    refine ⟨x, ⟨(hadd.refreshTokens x).mpr (.inr hx), ex⟩, ?_⟩
    rintro y ⟨hy, ey⟩
    rcases (hadd.refreshTokens y).mp hy with rfl | hy
    · exact absurd (hadd.references.symm.trans ey).symm (hadd.accessToken b hb)
    · exact honly y ⟨hy, ey⟩

theorem Paired.pairReplaced {old : AccessTokenModel} (h : Paired st)
    (hrep : PairReplaced st old a r st') : Paired st' := by
  intro b hb
  rcases (hrep.accessTokens b).mp hb with rfl | ⟨hb, hne⟩
  · refine ⟨r, ⟨(hrep.refreshTokens r).mpr (.inl rfl), hrep.references⟩, ?_⟩
    rintro x ⟨hx, ex⟩
    refine ((hrep.refreshTokens x).mp hx).resolve_right fun hx => ?_
    exact hrep.toNewPair.references_old hx.1 ex
  · have hid : b.id ≠ old.id := fun e => hne (Table.eq_of_key_eq hb hrep.old_mem e)
    obtain ⟨x, ⟨hx, ex⟩, honly⟩ := h b hb
    refine ⟨x, ⟨(hrep.refreshTokens x).mpr (.inr ⟨hx, ex ▸ hid⟩), ex⟩, ?_⟩
    rintro y ⟨hy, ey⟩
    rcases (hrep.refreshTokens y).mp hy with rfl | ⟨hy, -⟩
    · exact absurd (hrep.references.symm.trans ey).symm (hrep.accessToken b hb)
    · exact honly y ⟨hy, ey⟩

theorem Paired.retained {p : AccessTokenModel → Prop} (h : Paired st) (hret : Retained p st st') :
    Paired st' := by
  intro b hb
  obtain ⟨x, ⟨hx, ex⟩, honly⟩ := h b ((hret.accessTokens b).mp hb).1
  refine ⟨x, ⟨(hret.refreshTokens x).mpr ⟨hx, b, hb, ex.symm⟩, ex⟩, ?_⟩
  rintro y ⟨hy, ey⟩
  exact honly y ⟨((hret.refreshTokens y).mp hy).1, ey⟩

/-- Every step keeps the tokens in pairs. -/
theorem Paired.step (h : Paired st) (hstep : TokenChange app st op st') : Paired st' := by
  cases hstep with
  | same hu hc hres hs => exact h.same hs
  | issued hguard hissue hclient huser hadd => exact h.pairAdded hadd
  | rotated hissue hpresents hold hrep => exact h.pairReplaced hrep
  | deletedUser hret => exact h.retained hret
  | deletedClient hret => exact h.retained hret

/-- **Main theorem**: in every reachable store access tokens and refresh tokens are paired one to
    one by `access_token_id`. -/
theorem tokens_paired (h : Reachable app st) :
    (∀ a ∈ st.accessTokens, ∃! r, r ∈ st.refreshTokens ∧ r.access_token_id = a.id) ∧
      ∀ r ∈ st.refreshTokens, ∃! a, a ∈ st.accessTokens ∧ a.id = r.access_token_id := by
  obtain ⟨ops, hrun⟩ := h
  refine ⟨?_, fun r hr => ?_⟩
  · refine hrun.invariant (P := Paired) ?_ paired_empty
    rintro s op t hs rfl
    exact hs.step (token_change app op s)
  · obtain ⟨a, ha, e⟩ := st.refreshToken_accessToken r hr
    exact ⟨a, ⟨ha, e⟩, fun b ⟨hb, eb⟩ => Table.eq_of_key_eq hb ha (eb.trans e.symm)⟩

end

/-- The access token `3`. -/
def Sample.passwordToken : AccessTokenModel :=
  (Sample.env 5 3).accessToken (Sample.uuid 1) (some 1) (some 1005)

theorem tokens_paired_sample :
    ∃! r, r ∈ (performAll Sample.app Sample.passwordRun .empty).refreshTokens ∧
      r.access_token_id = Sample.passwordToken.id :=
  (tokens_paired ⟨_, run_performAll Sample.app Sample.passwordRun .empty⟩).1 Sample.passwordToken
    (by decide)

/-! ## Logins -/

/-- Who is logged in where, as often as they are: the client and the user of every login. -/
abbrev Logins := Multiset (Uuid × Option ℕ)

/-- What happens to the logins. -/
inductive LoginEvent where
  | opened (client : Uuid) (user : ℕ)
  | userDeleted (user : ℕ)
  | clientDeleted (client : Uuid)
  /-- Everything else, a refresh among it. -/
  | nothing

namespace Logins

def after (logins : Logins) : LoginEvent → Logins
  | .opened client user => (client, some user) ::ₘ logins
  | .userDeleted user => logins.filter (·.2 ≠ some user)
  | .clientDeleted client => logins.filter (·.1 ≠ client)
  | .nothing => logins

end Logins

/-- What a step is to the logins. -/
def Op.loginEvent (app : App) (op : Op) (st : Store) : LoginEvent :=
  match op with
  | .token env req =>
    match (postToken app env req st).1, (AccessTokenService.validate app env req st).1 with
    | .ok _, .ok (user, client) => .opened client.id user.id
    | _, _ => .nothing
  | .deleteUser id => .userDeleted id
  | .deleteClient id => .clientDeleted id
  | _ => .nothing

/-- The logins that the access tokens stand for. -/
def Store.logins (st : Store) : Logins :=
  (st.accessTokens.rows : Multiset AccessTokenModel).map fun a => (a.client_id, a.user_id)

section

variable {app : App} {op : Op} {st st' : Store}

theorem Store.nodup_accessTokens (st : Store) : st.accessTokens.rows.Nodup :=
  st.accessTokens.nodup.of_map

/-- The access tokens as a bag, from their elements. -/
theorem Store.accessTokens_eq {rows : List AccessTokenModel} (st : Store) (hrows : rows.Nodup)
    (h : ∀ a, a ∈ st.accessTokens ↔ a ∈ rows) :
    (st.accessTokens.rows : Multiset AccessTokenModel) = rows :=
  Multiset.coe_eq_coe.mpr ((List.perm_ext_iff_of_nodup st.nodup_accessTokens hrows).mpr h)

theorem PairAdded.logins {a : AccessTokenModel} {r : RefreshTokenModel}
    (h : PairAdded st a r st') : st'.logins = (a.client_id, a.user_id) ::ₘ st.logins := by
  have hna : a ∉ st.accessTokens.rows := fun ha => h.accessToken a ha rfl
  unfold Store.logins
  rw [st'.accessTokens_eq (List.nodup_cons.mpr ⟨hna, st.nodup_accessTokens⟩)
    fun b => (h.accessTokens b).trans List.mem_cons.symm]
  rfl

/-- A rotation keeps the client and the user. -/
theorem PairReplaced.logins {old a : AccessTokenModel} {r : RefreshTokenModel}
    (h : PairReplaced st old a r st') : st'.logins = st.logins := by
  have hna : a ∉ st.accessTokens.rows.erase old :=
    fun ha => h.accessToken a (List.mem_of_mem_erase ha) rfl
  have hrows := st.accessTokens.nodup.of_map
  have hst' := st'.accessTokens_eq (List.nodup_cons.mpr ⟨hna, hrows.erase old⟩) fun b => by
    rw [h.accessTokens, List.mem_cons, hrows.mem_erase_iff, and_comm (a := b ≠ old)]
    rfl
  have hst : (st.accessTokens.rows : Multiset AccessTokenModel) =
      (old :: st.accessTokens.rows.erase old : List AccessTokenModel) :=
    Multiset.coe_eq_coe.mpr (List.perm_cons_erase h.old_mem)
  unfold Store.logins
  rw [hst', hst, ← Multiset.cons_coe, ← Multiset.cons_coe, Multiset.map_cons, Multiset.map_cons,
    h.client_id, h.user_id]

theorem Retained.logins {p : AccessTokenModel → Prop} {q : Uuid × Option ℕ → Prop}
    [DecidablePred q] (hq : ∀ a, p a ↔ q (a.client_id, a.user_id)) (h : Retained p st st') :
    st'.logins = st.logins.filter q := by
  have hst' := st'.accessTokens_eq
    (st.nodup_accessTokens.filter fun a => q (a.client_id, a.user_id)) fun b => by
      rw [h.accessTokens, List.mem_filter, decide_eq_true_iff, hq]
      rfl
  unfold Store.logins
  rw [hst', Multiset.filter_map]
  rfl

/-- The step lemma of the refinement. -/
theorem step_logins (app : App) (op : Op) (st : Store) :
    (op.perform app st).logins = st.logins.after (op.loginEvent app st) := by
  cases token_change app op st with
  | same hu hc hres h =>
    have hevent : op.loginEvent app st = .nothing := by
      cases op with
      | deleteUser id => exact absurd rfl (hu id)
      | deleteClient id => exact absurd rfl (hc id)
      | token env req =>
        rcases hp : postToken app env req st with ⟨e | res, m⟩
        · simp only [Op.loginEvent, hp]
        · simp only [Op.response, hp] at hres
          cases hres
      | _ => rfl
    rw [hevent]
    unfold Store.logins
    rw [h.accessTokens]
    rfl
  | @issued env req user client a r res _ hguard hissue hclient huser h =>
    have hevent : (Op.token env req).loginEvent app st = .opened client.id user.id := by
      have hres := Op.response_eq_some.mpr ⟨a, r, _, hissue⟩
      rcases hp : postToken app env req st with ⟨e | res', m⟩
      · simp only [Op.response, hp] at hres
        cases hres
      · simp only [Op.loginEvent, hp, hguard]
    rw [h.logins, hclient, huser, hevent]
    rfl
  | rotated hissue hpresents hold h => exact h.logins
  | deletedUser h => exact h.logins fun _ => Iff.rfl
  | deletedClient h => exact h.logins fun _ => Iff.rfl

/-- The events of a run. -/
def loginEvents (app : App) : Store → List Op → List LoginEvent
  | _, [] => []
  | st, op :: ops => op.loginEvent app st :: loginEvents app (op.perform app st) ops

/-- **Main theorem**: over every run, the token tables hold what the bag of logins holds. Refreshes,
    revocations, failed requests and time leave it alone. -/
theorem run_logins {ops : List Op} (hrun : Run (Step app) st ops st') :
    st'.logins = (loginEvents app st ops).foldl Logins.after st.logins := by
  induction hrun with
  | nil => rfl
  | cons hstep _ ih => rw [ih, hstep, step_logins, loginEvents, List.foldl_cons]

end

theorem run_logins_sample :
    (performAll Sample.app Sample.passwordRun .empty).logins = {(Sample.uuid 1, some 1)} :=
  (run_logins (run_performAll Sample.app Sample.passwordRun .empty)).trans (by decide)

end NestTemplate
