import NestTemplate.Auth.Runs
import NestTemplate.Common.ReadCommitted

/-!
# Concurrent requests with one refresh token

The guard of `POST /oauth/refresh` looks the refresh token up outside any
transaction. The transaction of the handler then loads the old access token,
inserts the new pair, and destroys the old token, which takes its refresh tokens
along. Nothing notices a `destroy` that comes too late.

* `refresh_alone`: without other requests the steps do what `postRefresh` does.
* `rotated_once`: no refresh token is rotated twice in a run whose destroys all
  find the old access token.
* `rotated_twice`: any refresh token can be rotated twice, into two live pairs.
-/

namespace NestTemplate

open Common ReadCommitted

/-- A row of the two token tables. -/
inductive TokenRow where
  | accessToken (id : String)
  | refreshToken (id : String)

/-- Where a request stands. From `createdAccessToken` on its transaction has written. -/
inductive RefreshState where
  | received
  | guarded (current : RefreshTokenModel)
  | begun (current : RefreshTokenModel)
  | loaded (current : RefreshTokenModel) (old : AccessTokenModel) (client : ClientModel)
      (user : Option UserModel)
  | createdAccessToken (current : RefreshTokenModel) (old new : AccessTokenModel)
  | createdTokens (current : RefreshTokenModel) (old new : AccessTokenModel)
      (newRefresh : RefreshTokenModel)
  /-- `destroy` has resolved; whether its `DELETE` found the row is not looked at. -/
  | destroyed (current : RefreshTokenModel) (old new : AccessTokenModel)
      (newRefresh : RefreshTokenModel) (deleted : Bool)
  | responded (current : RefreshTokenModel) (new : AccessTokenModel)
      (newRefresh : RefreshTokenModel) (response : BearerTokenResult)
  | rejected (e : Failure)

/-- A request and where it stands. -/
structure Refresher where
  env : Env
  request : Request
  state : RefreshState

/-- The steps of a request. The guard and `load` make several look-ups each, of which one reads a
    table that these requests write; any statement, and the signing before the commit, may fail. -/
inductive RefreshStep where
  | guard
  | begin
  | load
  | insertAccessToken
  | insertRefreshToken
  | destroy
  | commit
  | fail (e : Failure)

namespace Refresher

/-! ## The statements -/

/-- A statement that has gone through once, on what is committed by now. -/
def attempt (f : Store → Except Failure Store) (st : Store) : Store := (f st).toOption.getD st

def insertAccess (a : AccessTokenModel) : Write Store TokenRow where
  apply := attempt (·.insertAccessToken a)
  locks := {.accessToken a.id}

def insertRefresh (r : RefreshTokenModel) : Write Store TokenRow where
  apply := attempt (·.insertRefreshToken r)
  locks := {.refreshToken r.id}

/-- `DELETE FROM oauth_access_tokens WHERE id = ...`. -/
def deleteAccess (id : String) : Write Store TokenRow where
  apply st := st.deleteAccessToken id
  locks := {.accessToken id}

def writes (r : Refresher) : List (Write Store TokenRow) :=
  match r.state with
  | .createdAccessToken _ _ new => [insertAccess new]
  | .createdTokens _ _ new newRefresh | .destroyed _ _ new newRefresh false =>
    [insertAccess new, insertRefresh newRefresh]
  | .destroyed _ old new newRefresh true =>
    [insertAccess new, insertRefresh newRefresh, deleteAccess old.id]
  | _ => []

/-- The access token is there. -/
def Present (id : String) (st : Store) : Prop := ∃ a ∈ st.accessTokens, a.id = id

instance (id : String) (st : Store) : Decidable (Present id st) :=
  inferInstanceAs (Decidable (∃ a ∈ st.accessTokens, a.id = id))

/-- The access token that `consumeToken` creates. -/
def newAccessToken (app : App) (env : Env) (client : ClientModel) (user : Option UserModel) :
    AccessTokenModel :=
  env.accessToken client.id (user.map (·.id)) (OauthController.refreshTokenExpiration app env)

/-- The refresh token that `consumeToken` creates. -/
def newRefreshToken (app : App) (env : Env) (new : AccessTokenModel) : RefreshTokenModel :=
  env.refreshToken new.id (OauthController.accessTokenExpiration app env)

/-- The three look-ups of `consumeToken`. -/
def loadFor (current : RefreshTokenModel) (view : Store) :
    Except Failure (AccessTokenModel × ClientModel × Option UserModel) := do
  let old ← RefreshTokenRepoService.getAccessToken current view
  let client ← RefreshTokenRepoService.getClient old view
  return (old, client, RefreshTokenRepoService.getUser old view)

/-- One step of a request that sees `view`. -/
def move (app : App) (r : Refresher) (a : RefreshStep) (view : Store) :
    Option (Move Store TokenRow Refresher) :=
  match r.state, a with
  | .received, .guard =>
    match (handleRequest (RefreshTokenService.validate app r.env r.request) view).1 with
    | .ok current => some (.look { r with state := .guarded current })
    | .error e => some (.look { r with state := .rejected e })
  | .guarded current, .begin => some (.look { r with state := .begun current })
  | .begun current, .load =>
    match loadFor current view with
    | .ok (old, client, user) => some (.look { r with state := .loaded current old client user })
    | .error e => some (.rollback { r with state := .rejected e })
  | .loaded current old client user, .insertAccessToken =>
    let new := newAccessToken app r.env client user
    match view.insertAccessToken new with
    | .ok _ =>
      some (.write (insertAccess new) { r with state := .createdAccessToken current old new })
    | .error e => some (.rollback { r with state := .rejected e })
  | .createdAccessToken current old new, .insertRefreshToken =>
    let newRefresh := newRefreshToken app r.env new
    match view.insertRefreshToken newRefresh with
    | .ok _ => some (.write (insertRefresh newRefresh)
        { r with state := .createdTokens current old new newRefresh })
    | .error e => some (.rollback { r with state := .rejected e })
  | .createdTokens current old new newRefresh, .destroy =>
    if Present old.id view then
      some (.write (deleteAccess old.id)
        { r with state := .destroyed current old new newRefresh true })
    else some (.look { r with state := .destroyed current old new newRefresh false })
  | .destroyed current _ new newRefresh _, .commit =>
    some (.commit { r with
      state := .responded current new newRefresh (OauthController.bearer app r.env new newRefresh) })
  | .responded .., .fail _ | .rejected _, .fail _ => none
  | _, .fail e => some (.rollback { r with state := .rejected e })
  | _, _ => none

/-- The moves there are. -/
inductive Moves (app : App) (r : Refresher) (view : Store) :
    RefreshState → RefreshStep → Move Store TokenRow Refresher → Prop
  | guard {current : RefreshTokenModel} {view' : Store} :
      handleRequest (RefreshTokenService.validate app r.env r.request) view =
        (.ok current, view') →
      Moves app r view .received .guard (.look { r with state := .guarded current })
  | refused {e : Failure} :
      Moves app r view .received .guard (.look { r with state := .rejected e })
  | begin {current : RefreshTokenModel} :
      Moves app r view (.guarded current) .begin (.look { r with state := .begun current })
  | load {current : RefreshTokenModel} {old : AccessTokenModel} {client : ClientModel}
      {user : Option UserModel} : loadFor current view = .ok (old, client, user) →
      Moves app r view (.begun current) .load
        (.look { r with state := .loaded current old client user })
  | insertAccessToken {current : RefreshTokenModel} {old : AccessTokenModel}
      {client : ClientModel} {user : Option UserModel} :
      Moves app r view (.loaded current old client user) .insertAccessToken
        (.write (insertAccess (newAccessToken app r.env client user))
          { r with state := .createdAccessToken current old (newAccessToken app r.env client user) })
  | insertRefreshToken {current : RefreshTokenModel} {old new : AccessTokenModel} :
      Moves app r view (.createdAccessToken current old new) .insertRefreshToken
        (.write (insertRefresh (newRefreshToken app r.env new))
          { r with state := .createdTokens current old new (newRefreshToken app r.env new) })
  | deleted {current : RefreshTokenModel} {old new : AccessTokenModel}
      {newRefresh : RefreshTokenModel} : Present old.id view →
      Moves app r view (.createdTokens current old new newRefresh) .destroy
        (.write (deleteAccess old.id)
          { r with state := .destroyed current old new newRefresh true })
  | gone {current : RefreshTokenModel} {old new : AccessTokenModel}
      {newRefresh : RefreshTokenModel} : ¬ Present old.id view →
      Moves app r view (.createdTokens current old new newRefresh) .destroy
        (.look { r with state := .destroyed current old new newRefresh false })
  | commit {current : RefreshTokenModel} {old new : AccessTokenModel}
      {newRefresh : RefreshTokenModel} {deleted : Bool} :
      Moves app r view (.destroyed current old new newRefresh deleted) .commit
        (.commit { r with
          state := .responded current new newRefresh
            (OauthController.bearer app r.env new newRefresh) })
  | fail {state : RefreshState} {a : RefreshStep} {e : Failure} :
      Moves app r view state a (.rollback { r with state := .rejected e })

theorem moves_of_move {app : App} {r : Refresher} {a : RefreshStep} {view : Store}
    {m : Move Store TokenRow Refresher} (h : move app r a view = some m) :
    Moves app r view r.state a m := by
  unfold move at h
  split at h
  · rename_i hs
    rcases hg : handleRequest (RefreshTokenService.validate app r.env r.request) view with
      ⟨e | current, view'⟩ <;> rw [hg] at h <;> cases h <;> rw [hs]
    · exact .refused
    · exact .guard hg
  · rename_i hs; cases h; rw [hs]; exact .begin
  · rename_i hs
    split at h
    · rename_i hload; cases h; rw [hs]; exact .load hload
    · cases h; exact .fail
  · rename_i hs
    dsimp only at h
    split at h <;> cases h
    · rw [hs]; exact .insertAccessToken
    · exact .fail
  · rename_i hs
    dsimp only at h
    split at h <;> cases h
    · rw [hs]; exact .insertRefreshToken
    · exact .fail
  · rename_i hs
    split at h <;> rename_i hrow <;> cases h <;> rw [hs]
    · exact .deleted hrow
    · exact .gone hrow
  · rename_i hs; cases h; rw [hs]; exact .commit
  · cases h
  · cases h
  · cases h; exact .fail
  · cases h

/-- A request as a client of the database. -/
def client (app : App) : Client Store TokenRow Refresher RefreshStep where
  writes := writes
  move := move app
  writes_next := by
    intro r a view m h
    have hmoves := moves_of_move h
    generalize hs : r.state = s at hmoves
    cases hmoves <;> simp only [writes, Move.next, Move.pending, hs] <;> rfl

theorem loadFor_eq_ok {current : RefreshTokenModel} {view : Store} {old : AccessTokenModel}
    {client : ClientModel} {user : Option UserModel} :
    loadFor current view = .ok (old, client, user) ↔
      (old ∈ view.accessTokens ∧ old.id = current.access_token_id) ∧
        (client ∈ view.clients ∧ client.id = old.client_id) ∧
          RefreshTokenRepoService.getUser old view = user := by
  rw [← Table.find?_eq_some, ← Table.find?_eq_some]
  unfold loadFor RefreshTokenRepoService.getAccessToken
  cases view.accessTokens.find? current.access_token_id with
  | none => simp [bind, Except.bind]
  | some a =>
    show (RefreshTokenRepoService.getClient a view >>= fun client =>
      pure (a, client, RefreshTokenRepoService.getUser a view)) = _ ↔ _
    unfold RefreshTokenRepoService.getClient
    cases hc : view.clients.find? a.client_id <;>
      simp only [bind, Except.bind, pure, Except.pure, Except.ok.injEq, Prod.mk.injEq,
        Option.some.injEq, reduceCtorEq, false_iff]
    · rintro ⟨rfl, hc', -⟩
      rw [hc] at hc'
      cases hc'
    · constructor
      · rintro ⟨rfl, rfl, rfl⟩
        exact ⟨rfl, hc, rfl⟩
      · rintro ⟨rfl, hc', rfl⟩
        exact ⟨rfl, Option.some.inj (hc.symm.trans hc'), rfl⟩

/-! ## What the writes do -/

theorem attempt_cases (f : Store → Except Failure Store) (st : Store) :
    attempt f st = st ∨ f st = .ok (attempt f st) := by
  unfold attempt
  cases f st with
  | ok st' => exact .inr rfl
  | error e => exact .inl rfl

theorem insertAccess_ok {st st' : Store} {a : AccessTokenModel}
    (h : st.insertAccessToken a = .ok st') : (insertAccess a).apply st = st' := by
  show ((st.insertAccessToken a).toOption).getD st = st'
  rw [h]
  rfl

theorem insertRefresh_ok {st st' : Store} {r : RefreshTokenModel}
    (h : st.insertRefreshToken r = .ok st') : (insertRefresh r).apply st = st' := by
  show ((st.insertRefreshToken r).toOption).getD st = st'
  rw [h]
  rfl

@[simp] theorem insertAccess_refreshTokens (a : AccessTokenModel) (st : Store) :
    ((insertAccess a).apply st).refreshTokens = st.refreshTokens := by
  show (attempt (·.insertAccessToken a) st).refreshTokens = _
  rcases attempt_cases (·.insertAccessToken a) st with h | h
  · rw [h]
  · exact (Store.insertAccessToken_eq_ok h).2.2.2.2

@[simp] theorem insertRefresh_accessTokens (r : RefreshTokenModel) (st : Store) :
    ((insertRefresh r).apply st).accessTokens = st.accessTokens := by
  show (attempt (·.insertRefreshToken r) st).accessTokens = _
  rcases attempt_cases (·.insertRefreshToken r) st with h | h
  · rw [h]
  · exact (Store.insertRefreshToken_eq_ok h).2.2.2.2

/-- An insert under another id neither brings an access token nor takes it away. -/
theorem present_insertAccess {a : AccessTokenModel} {id : String} (hid : a.id ≠ id) (st : Store) :
    Present id ((insertAccess a).apply st) ↔ Present id st := by
  show Present id (attempt (·.insertAccessToken a) st) ↔ _
  rcases attempt_cases (·.insertAccessToken a) st with h | h
  · rw [h]
  · obtain ⟨ha, -⟩ := Store.insertAccessToken_eq_ok h
    constructor
    · rintro ⟨x, hx, rfl⟩
      rcases (ha x).mp hx with rfl | hx
      · exact absurd rfl hid
      · exact ⟨x, hx, rfl⟩
    · rintro ⟨x, hx, rfl⟩
      exact ⟨x, (ha x).mpr (.inr hx), rfl⟩

theorem present_insertRefresh {r : RefreshTokenModel} {id : String} {st : Store} :
    Present id ((insertRefresh r).apply st) ↔ Present id st := by
  simp [Present]

theorem not_present_deleteAccess {id : String} {st : Store} :
    ¬ Present id ((deleteAccess id).apply st) := by
  rintro ⟨x, hx, hid⟩
  exact (Store.mem_deleteAccessToken.mp hx).2 hid

/-- The refresh token that goes by the id of `r` is `r`. -/
def IsOnly (r : RefreshTokenModel) (st : Store) : Prop := ∀ x ∈ st.refreshTokens, x.id = r.id → x = r

theorem isOnly_insertRefresh {r n : RefreshTokenModel} (hid : n.id ≠ r.id) {st : Store}
    (h : IsOnly r st) : IsOnly r ((insertRefresh n).apply st) := by
  show IsOnly r (attempt (·.insertRefreshToken n) st)
  rcases attempt_cases (·.insertRefreshToken n) st with hn | hn
  · rwa [hn]
  · obtain ⟨hmem, -⟩ := Store.insertRefreshToken_eq_ok hn
    intro x hx hx'
    rcases (hmem x).mp hx with rfl | hx
    · exact absurd hx' hid
    · exact h x hx hx'

end Refresher

/-! ## At most once -/

section Once

variable {τ : Type} {app : App} {st st' : State Store τ Refresher} {r : RefreshTokenModel}

/-- A request rotated the refresh token `r` into a new pair. -/
def RotatedInto (r : RefreshTokenModel) (l : Refresher) (new : AccessTokenModel)
    (newRefresh : RefreshTokenModel) : Prop :=
  ∃ current response, l.state = .responded current new newRefresh response ∧ current.id = r.id

/-- At most one request has succeeded with the refresh token `r`, with one pair. -/
def RotatedOnce (r : RefreshTokenModel) (st : State Store τ Refresher) : Prop :=
  ∀ t t' new new' newRefresh newRefresh', RotatedInto r (st.clients t) new newRefresh →
    RotatedInto r (st.clients t') new' newRefresh' →
      t = t' ∧ new = new' ∧ newRefresh = newRefresh'

/-- A destroy on behalf of `r` finds the old access token still there, and no id that is generated
    is the one of `r` or of its access token. -/
def FindsOldToken (r : RefreshTokenModel) (st : State Store τ Refresher) (e : τ × RefreshStep) :
    Prop :=
  match e.2, (st.clients e.1).state with
  | .destroy, .createdTokens current old _ _ =>
    current.id = r.id → Refresher.Present old.id st.committed
  | .insertAccessToken, _ => hex (st.clients e.1).env.accessTokenBytes.toList ≠ r.access_token_id
  | .insertRefreshToken, _ => hex (st.clients e.1).env.refreshTokenBytes.toList ≠ r.id
  | _, _ => True

namespace Refresher

/-- What a request keeps to, whatever it does to `r`. -/
def Promises (r : RefreshTokenModel) (l : Refresher) : Prop :=
  match l.state with
  | .guarded current | .begun current => current.id = r.id → current = r
  | .loaded current old _ _ => current.id = r.id → old.id = r.access_token_id
  | .createdAccessToken current old new =>
    (current.id = r.id → old.id = r.access_token_id) ∧ new.id ≠ r.access_token_id
  | .createdTokens current old new newRefresh =>
    (current.id = r.id → old.id = r.access_token_id) ∧ new.id ≠ r.access_token_id ∧
      newRefresh.id ≠ r.id
  | .destroyed current old new newRefresh deleted =>
    (current.id = r.id → old.id = r.access_token_id ∧ deleted = true) ∧
      new.id ≠ r.access_token_id ∧ newRefresh.id ≠ r.id
  | _ => True

/-- The shapes of the pending writes. -/
theorem mem_writes {l : Refresher} (hl : Promises r l) {w : Write Store TokenRow}
    (h : w ∈ l.writes) :
    (∃ new, w = insertAccess new ∧ new.id ≠ r.access_token_id) ∨
      (∃ newRefresh, w = insertRefresh newRefresh ∧ newRefresh.id ≠ r.id) ∨
        ∃ id, w = deleteAccess id := by
  obtain ⟨env, request, state⟩ := l
  cases state with
  | createdAccessToken current old new =>
    exact .inl ⟨new, List.mem_singleton.mp h, hl.2⟩
  | createdTokens current old new newRefresh =>
    obtain ⟨-, hnew, hnewRefresh⟩ := hl
    have h : w ∈ [insertAccess new, insertRefresh newRefresh] := h
    simp only [List.mem_cons, List.not_mem_nil, or_false] at h
    exact h.imp (⟨new, ·, hnew⟩) fun h => .inl ⟨newRefresh, h, hnewRefresh⟩
  | destroyed current old new newRefresh deleted =>
    obtain ⟨-, hnew, hnewRefresh⟩ := hl
    have h : w ∈ [insertAccess new, insertRefresh newRefresh, deleteAccess old.id] := by
      cases deleted with
      | true => exact h
      | false => exact List.mem_append_left [deleteAccess old.id] h
    simp only [List.mem_cons, List.not_mem_nil, or_false] at h
    exact h.imp (⟨new, ·, hnew⟩) (Or.imp (⟨newRefresh, ·, hnewRefresh⟩) (⟨old.id, ·⟩))
  | _ => cases h

theorem isOnly_write {l : Refresher} (hl : Promises r l) {w : Write Store TokenRow}
    (hw : w ∈ l.writes) (s : Store) (h : IsOnly r s) : IsOnly r (w.apply s) := by
  rcases mem_writes hl hw with ⟨new, rfl, -⟩ | ⟨newRefresh, rfl, hid⟩ | ⟨id, rfl⟩
  · intro x hx
    rw [insertAccess_refreshTokens] at hx
    exact h x hx
  · exact isOnly_insertRefresh hid h
  · exact fun x hx => h x (Store.mem_deleteAccessToken_refreshTokens.mp hx).1

theorem not_present_write {l : Refresher} (hl : Promises r l) {w : Write Store TokenRow}
    (hw : w ∈ l.writes) (s : Store) (h : ¬ Present r.access_token_id s) :
    ¬ Present r.access_token_id (w.apply s) := by
  rcases mem_writes hl hw with ⟨new, rfl, hid⟩ | ⟨newRefresh, rfl, -⟩ | ⟨id, rfl⟩
  · rwa [present_insertAccess hid]
  · rwa [present_insertRefresh]
  · rintro ⟨x, hx, hid⟩
    exact h ⟨x, (Store.mem_deleteAccessToken.mp hx).1, hid⟩

/-- A request that has inserted a pair still sees whether another access token is committed. -/
theorem present_view {t : τ} {current : RefreshTokenModel} {old new : AccessTokenModel}
    {newRefresh : RefreshTokenModel} {id : String}
    (hs : (st.clients t).state = .createdTokens current old new newRefresh) (hid : new.id ≠ id) :
    Present id ((client app).view st t) ↔ Present id st.committed := by
  have hwrites : (client app).writes (st.clients t) =
      [insertAccess new, insertRefresh newRefresh] := by
    show writes _ = _
    rw [writes, hs]
  unfold Client.view
  rw [hwrites]
  exact present_insertRefresh.trans (present_insertAccess hid _)

/-- Every step keeps the promises. -/
theorem promises_next {t : τ} {a : RefreshStep} {m : Move Store TokenRow Refresher}
    (hP : FindsOldToken r st (t, a)) (hl : Promises r (st.clients t)) (hQ : IsOnly r st.committed)
    (hm : (client app).move (st.clients t) a ((client app).view st t) = some m) :
    Promises r m.next := by
  generalize hview : (client app).view st t = view at hm
  have hmoves := moves_of_move hm
  unfold FindsOldToken at hP
  unfold Promises at hl
  generalize hs : (st.clients t).state = s at hmoves hl hP
  cases hmoves with
  | guard h =>
    obtain ⟨-, payload, client, -, -, hmem, -, -, rfl⟩ :=
      RefreshTokenService.validate_eq_ok.mp (handleRequest_eq_ok.mp h)
    rw [← hview, Client.view_of_nil (by show writes _ = []; rw [writes, hs])] at hmem
    exact hQ _ hmem
  | begin => exact hl
  | load h => exact fun hid => by rw [(loadFor_eq_ok.mp h).1.2, hl hid]
  | insertAccessToken => exact ⟨hl, hP⟩
  | insertRefreshToken => exact ⟨hl.1, hl.2, hP⟩
  | deleted => exact ⟨fun hid => ⟨hl.1 hid, rfl⟩, hl.2⟩
  | gone hgone =>
    refine ⟨fun hid => absurd ?_ hgone, hl.2⟩
    rw [← hview, present_view hs (by rw [hl.1 hid]; exact hl.2.1)]
    exact hP hid
  | _ => trivial

/-- The request is about to succeed with `r`. -/
def Claims (r : RefreshTokenModel) (l : Refresher) : Prop :=
  ∃ current old new newRefresh deleted,
    l.state = .destroyed current old new newRefresh deleted ∧ current.id = r.id

/-- The request has succeeded with `r`. -/
def Won (r : RefreshTokenModel) (l : Refresher) : Prop :=
  ∃ new newRefresh, RotatedInto r l new newRefresh

/-- A claim holds the old access token's row, which is the one of `r`. -/
theorem writes_of_claims {l : Refresher} (hl : Promises r l) (hc : Claims r l) :
    ∃ new newRefresh, l.writes =
      [insertAccess new, insertRefresh newRefresh, deleteAccess r.access_token_id] := by
  obtain ⟨current, old, new, newRefresh, deleted, hs, hid⟩ := hc
  unfold Promises at hl
  rw [hs] at hl
  obtain ⟨hold, rfl⟩ := hl.1 hid
  exact ⟨new, newRefresh, by rw [writes, hs, ← hold]⟩

/-- The delete is what makes a refresh token single-use. -/
theorem soleClaim (r : RefreshTokenModel) :
    SoleClaim (client app) (FindsOldToken (τ := τ) r) (IsOnly r) (Promises r)
      (.accessToken r.access_token_id) (Present r.access_token_id) (Claims r) (Won r) where
  claim := by
    rintro st t a m hP ⟨hQ, hl⟩ hm hclaims hnot
    have hnext := promises_next hP (hl t) hQ hm
    obtain ⟨current, old, new, newRefresh, deleted, hstate, hid⟩ := hclaims
    have hl := hl t
    have hmoves := moves_of_move hm
    unfold Promises at hl hnext
    unfold FindsOldToken at hP
    generalize hs : (st.clients t).state = s at hmoves hl hP
    cases hmoves with
    | deleted =>
      cases hstate
      have hold := hl.1 hid
      exact ⟨hold ▸ hP hid, _, _, rfl, congrArg TokenRow.accessToken hold.symm⟩
    | gone =>
      cases hstate
      cases (hnext.1 hid).2
    | _ => cases hstate
  holds := by
    intro l hl hc
    obtain ⟨new, newRefresh, hw⟩ := writes_of_claims hl hc
    refine ⟨deleteAccess r.access_token_id, ?_, rfl⟩
    show _ ∈ writes l
    rw [hw]
    simp
  win := by
    rintro l a view m - hm ⟨new, newRefresh, current, response, hstate, hid⟩ hnot
    have hmoves := moves_of_move hm
    generalize hs : l.state = s at hmoves
    cases hmoves with
    | commit =>
      cases hstate
      exact ⟨⟨_, _, _, _, _, hs, hid⟩, _, rfl⟩
    | _ => cases hstate
  deletes := by
    intro l hl hc s
    obtain ⟨new, newRefresh, hw⟩ := writes_of_claims hl hc
    show ¬ Present _ (applyAll (writes l) s)
    rw [hw]
    exact not_present_deleteAccess
  stays := fun l hl w hw s => not_present_write hl hw s

end Refresher

/-- **Main theorem**: in every run in which each destroy on behalf of `r` finds the old access
    token, and no generated id is that of `r` or of its access token, `r` is rotated at most once. -/
theorem rotated_once [DecidableEq τ] {es : List (τ × RefreshStep)}
    (hr : r ∈ st.committed.refreshTokens) (hreceived : ∀ t, (st.clients t).state = .received)
    (hrun : Run (ReadCommitted.Step (Refresher.client app)) st es st')
    (hfinds : Along (ReadCommitted.Step (Refresher.client app)) (FindsOldToken r) st es) :
    RotatedOnce r st' := by
  have honly : Refresher.IsOnly r st.committed := fun x hx hid => Table.eq_of_key_eq hx hr hid
  have hpromises : ∀ t, Refresher.Promises r (st.clients t) := by
    intro t
    unfold Refresher.Promises
    rw [hreceived t]
    trivial
  have hnone : ∀ t, ¬ Refresher.Claims r (st.clients t) ∧ ¬ Refresher.Won r (st.clients t) := by
    refine fun t => ⟨?_, ?_⟩
    · rintro ⟨_, _, _, _, _, hs, -⟩
      rw [hreceived t] at hs
      cases hs
    · rintro ⟨_, _, _, _, hs, -⟩
      rw [hreceived t] at hs
      cases hs
  intro t t' new new' newRefresh newRefresh' ht ht'
  have htt : t = t' := (Refresher.soleClaim r).run
    (local_invariant (fun _ hl _ hw s hs => Refresher.isOnly_write hl hw s hs)
      fun _ _ _ _ hP hl hQ hm => Refresher.promises_next hP hl hQ hm)
    hrun hfinds ⟨honly, hpromises⟩ hnone ⟨_, _, ht⟩ ⟨_, _, ht'⟩
  subst htt
  obtain ⟨current, response, hs, -⟩ := ht
  obtain ⟨current', response', hs', -⟩ := ht'
  cases hs.symm.trans hs'
  exact ⟨rfl, rfl, rfl⟩

/-! ## Alone, and twice -/

section Runs

variable [DecidableEq τ] {calls : τ → Refresher} {t : τ} {s m : Store} {env : Env} {req : Request}
  {current : RefreshTokenModel} {old : AccessTokenModel} {client : ClientModel}
  {user : Option UserModel}

namespace Refresher

/-- A request passes the guard, begins its transaction and loads the old access token. -/
def lookUp : List RefreshStep := [.guard, .begin, .load]

/-- A request inserts the new pair. -/
def insertPair : List RefreshStep := [.insertAccessToken, .insertRefreshToken]

/-- A request destroys the old access token and commits. -/
def finish : List RefreshStep := [.destroy, .commit]

/-- What a request responds with. -/
def respond (app : App) (env : Env) (req : Request) (current : RefreshTokenModel)
    (new : AccessTokenModel) : Refresher :=
  ⟨env, req, .responded current new (newRefreshToken app env new)
    (OauthController.bearer app env new (newRefreshToken app env new))⟩

theorem lookUp_alone
    (hguard : handleRequest (RefreshTokenService.validate app env req) s = (.ok current, s))
    (hload : loadFor current s = .ok (old, client, user)) :
    (Refresher.client app).runAlone lookUp (⟨env, req, .received⟩, s) =
      some (⟨env, req, .loaded current old client user⟩, s) := by
  have h₁ : (Refresher.client app).move ⟨env, req, .received⟩ .guard s =
      some (.look ⟨env, req, .guarded current⟩) := by
    simp only [Refresher.client, move, hguard]
  have h₂ : (Refresher.client app).move ⟨env, req, .guarded current⟩ .begin s =
      some (.look ⟨env, req, .begun current⟩) := rfl
  have h₃ : (Refresher.client app).move ⟨env, req, .begun current⟩ .load s =
      some (.look ⟨env, req, .loaded current old client user⟩) := by
    simp only [Refresher.client, move, hload]
  exact (Client.runAlone_cons h₁ _).trans ((Client.runAlone_cons h₂ _).trans
    (Client.runAlone_cons h₃ []))

theorem begin_alone
    (hguard : handleRequest (RefreshTokenService.validate app env req) s = (.ok current, s)) :
    (Refresher.client app).runAlone [.guard, .begin] (⟨env, req, .received⟩, s) =
      some (⟨env, req, .begun current⟩, s) := by
  have hmove : (Refresher.client app).move ⟨env, req, .received⟩ .guard s =
      some (.look ⟨env, req, .guarded current⟩) := by
    simp only [Refresher.client, move, hguard]
  exact Client.runAlone_cons hmove [.begin]

/-- A request that finds the old access token gone is refused. -/
theorem load_gone_alone (hgone : ¬ Present current.access_token_id s) :
    (Refresher.client app).runAlone [.load] (⟨env, req, .begun current⟩, s) =
      some (⟨env, req, .rejected (.error "Access token not found")⟩, s) := by
  have hnone : s.accessTokens.find? current.access_token_id = none :=
    Table.find?_eq_none.mpr fun a ha hid => hgone ⟨a, ha, hid⟩
  have hload : loadFor current s = .error (.error "Access token not found") := by
    unfold loadFor RefreshTokenRepoService.getAccessToken
    rw [hnone]
    rfl
  have hmove : (Refresher.client app).move ⟨env, req, .begun current⟩ .load s =
      some (.rollback ⟨env, req, .rejected (.error "Access token not found")⟩) := by
    simp only [Refresher.client, move, hload]
  exact Client.runAlone_cons hmove []

theorem insertPair_alone {new : AccessTokenModel} {newRefresh : RefreshTokenModel}
    (hnew : newAccessToken app env client user = new)
    (hnewRefresh : newRefreshToken app env new = newRefresh)
    (hi : s.insertTokens new newRefresh = .ok m) :
    (Refresher.client app).runAlone insertPair (⟨env, req, .loaded current old client user⟩, s) =
      some (⟨env, req, .createdTokens current old new newRefresh⟩, s) ∧
        applyAll [insertAccess new, insertRefresh newRefresh] s = m := by
  unfold Store.insertTokens at hi
  split at hi
  · rename_i m₁ hi₁
    have hview : applyAll [insertAccess new] s = m₁ := insertAccess_ok hi₁
    have h₁ : (Refresher.client app).move ⟨env, req, .loaded current old client user⟩
        .insertAccessToken s =
          some (.write (insertAccess new) ⟨env, req, .createdAccessToken current old new⟩) := by
      simp only [Refresher.client, move, hnew, hi₁]
    have h₂ : (Refresher.client app).move ⟨env, req, .createdAccessToken current old new⟩
        .insertRefreshToken (applyAll [insertAccess new] s) = some (.write
          (insertRefresh newRefresh) ⟨env, req, .createdTokens current old new newRefresh⟩) := by
      rw [hview]
      simp only [Refresher.client, move, hnewRefresh, hi]
    refine ⟨(Client.runAlone_cons h₁ _).trans (Client.runAlone_cons h₂ []), ?_⟩
    rw [← insertRefresh_ok hi, ← hview]
    rfl
  · cases hi

/-- The end of a request that has inserted its pair, whether the old access token is still there
    or not. -/
theorem finish_alone {new : AccessTokenModel} {newRefresh : RefreshTokenModel}
    (hnewRefresh : newRefreshToken app env new = newRefresh)
    (hview : applyAll [insertAccess new, insertRefresh newRefresh] s = m) :
    (Refresher.client app).runAlone finish
        (⟨env, req, .createdTokens current old new newRefresh⟩, s) =
      some (respond app env req current new,
        if Present old.id m then m.deleteAccessToken old.id else m) := by
  subst hnewRefresh hview
  by_cases hrow : Present old.id
      (applyAll [insertAccess new, insertRefresh (newRefreshToken app env new)] s)
  · have hmove : (Refresher.client app).move
        ⟨env, req, .createdTokens current old new (newRefreshToken app env new)⟩ .destroy
        (applyAll [insertAccess new, insertRefresh (newRefreshToken app env new)] s) =
          some (.write (deleteAccess old.id)
            ⟨env, req, .destroyed current old new (newRefreshToken app env new) true⟩) := by
      simp only [Refresher.client, move, hrow, if_true]
    rw [if_pos hrow]
    exact Client.runAlone_cons hmove [.commit]
  · have hmove : (Refresher.client app).move
        ⟨env, req, .createdTokens current old new (newRefreshToken app env new)⟩ .destroy
        (applyAll [insertAccess new, insertRefresh (newRefreshToken app env new)] s) =
          some (.look ⟨env, req, .destroyed current old new (newRefreshToken app env new) false⟩) := by
      simp only [Refresher.client, move, hrow, if_false]
    rw [if_neg hrow]
    exact Client.runAlone_cons hmove [.commit]

/-- The end of a request that has loaded the old access token. -/
theorem rotate_alone {new : AccessTokenModel} (hnew : newAccessToken app env client user = new)
    (hi : s.insertTokens new (newRefreshToken app env new) = .ok m) :
    (Refresher.client app).runAlone (insertPair ++ finish)
        (⟨env, req, .loaded current old client user⟩, s) =
      some (respond app env req current new,
        if Present old.id m then m.deleteAccessToken old.id else m) := by
  obtain ⟨hpair, hview⟩ := insertPair_alone hnew rfl hi
  rw [Client.runAlone_append hpair, finish_alone rfl hview]

end Refresher

/-- The guard lets a granted request through, and its look-ups succeed. -/
theorem RefreshGranted.lookUp {payload : Json} {authenticated : ClientModel}
    (hg : RefreshGranted app env req s payload authenticated current) :
    handleRequest (RefreshTokenService.validate app env req) s = (.ok current, s) ∧
      ∃ old client user, Refresher.loadFor current s = .ok (old, client, user) ∧
        client.id = old.client_id ∧ user.map (·.id) = old.user_id := by
  refine ⟨handleRequest_eq_ok.mpr (RefreshTokenService.validate_eq_ok.mpr ⟨hg.accept, payload,
    authenticated, hg.content, hg.credentials, hg.mem, hg.bearer, hg.active, rfl⟩), ?_⟩
  obtain ⟨old, ho, eo, -, c, hc, ec, -, hu⟩ := RefreshTokenRepoService.getters_ok hg.mem
  exact ⟨old, c, _, Refresher.loadFor_eq_ok.mpr ⟨⟨ho, eo⟩, ⟨hc, ec⟩, rfl⟩, ec, hu⟩

/-- Without other open transactions a request that goes through leaves the tables and answers as
    `postRefresh` does. -/
theorem refresh_alone {res : BearerTokenResult} {s' : Store}
    (h : postRefresh app env req s = (.ok res, s')) :
    ∃ current new newRefresh, (Refresher.client app).runAlone
      (Refresher.lookUp ++ (Refresher.insertPair ++ Refresher.finish)) (⟨env, req, .received⟩, s) =
        some (⟨env, req, .responded current new newRefresh res⟩, s') := by
  obtain ⟨-, -, payload, authenticated, current, hg, old, ho, eo, a, n, ha, rfl, ⟨m, hi, rfl⟩, rfl⟩ :=
    postRefresh_eq_ok.mp h
  obtain ⟨hguard, old', client, user, hload, hc, hu⟩ := hg.lookUp
  obtain ⟨⟨ho', eo'⟩, -⟩ := Refresher.loadFor_eq_ok.mp hload
  obtain rfl : old' = old := Table.eq_of_key_eq ho' ho (eo'.trans eo.symm)
  have hnew : Refresher.newAccessToken app env client user = a := by
    rw [ha, Refresher.newAccessToken, hc, hu]
  have hpresent : Refresher.Present old'.id m :=
    ⟨old', ((Store.insertTokens_eq_ok hi).1 _).mpr (.inr ho), rfl⟩
  refine ⟨current, a, Refresher.newRefreshToken app env a, ?_⟩
  rw [Client.runAlone_append (Refresher.lookUp_alone hguard hload),
    Refresher.rotate_alone hnew hi, if_pos hpresent]
  rfl

/-- After `old` was rotated, another pair with new ids goes in for its client and user, and does
    not bring it back. -/
theorem insertTokens_after_rotation {old new new' : AccessTokenModel} {r r' : RefreshTokenModel}
    (ho : old ∈ s.accessTokens) (hi : s.insertTokens new r = .ok m)
    (hclient : new'.client_id = old.client_id) (huser : new'.user_id = old.user_id)
    (hr' : r'.access_token_id = new'.id) (hfresh : ∀ b ∈ s.accessTokens, b.id ≠ new'.id)
    (hnew : new.id ≠ new'.id) (hrefresh : ∀ x ∈ s.refreshTokens, x.id ≠ r'.id)
    (hr : r.id ≠ r'.id) :
    ∃ m', (m.deleteAccessToken old.id).insertTokens new' r' = .ok m' ∧
      ¬ Refresher.Present old.id m' := by
  obtain ⟨hacc, href, husers, hclients, -⟩ := Store.insertTokens_eq_ok hi
  obtain ⟨m', hi'⟩ : ∃ m', (m.deleteAccessToken old.id).insertTokens new' r' = .ok m' := by
    refine (Store.insertTokens_isOk hr').mpr ⟨⟨fun b hb => ?_, ?_, ?_⟩, fun x hx => ?_⟩
    · rcases (hacc b).mp (Store.mem_deleteAccessToken.mp hb).1 with rfl | hb
      · exact hnew
      · exact hfresh b hb
    · rw [Store.deleteAccessToken_clients, hclients, hclient]
      exact s.accessToken_client old ho
    · rw [Store.deleteAccessToken_users, husers, huser]
      exact s.accessToken_user old ho
    · rcases (href x).mp (Store.mem_deleteAccessToken_refreshTokens.mp hx).1 with rfl | hx
      · exact hr
      · exact hrefresh x hx
  refine ⟨m', hi', ?_⟩
  rintro ⟨x, hx, hx'⟩
  rcases ((Store.insertTokens_eq_ok hi').1 x).mp hx with rfl | hx
  · exact hfresh old ho hx'.symm
  · exact (Store.mem_deleteAccessToken.mp hx).2 hx'

/-- Two requests that have loaded the same access token both rotate it, one after the other. -/
theorem rotate_both {env' : Env} {req' : Request} {t' : τ} (hne : t' ≠ t)
    (hquiet : (Refresher.client app).Quiet calls)
    (ht : calls t = ⟨env, req, .loaded current old client user⟩)
    (ht' : calls t' = ⟨env', req', .loaded current old client user⟩)
    (ho : old ∈ s.accessTokens) (hc : client.id = old.client_id)
    (hu : user.map (·.id) = old.user_id) (hfresh : env.Fresh s) (hfresh' : env'.Fresh s)
    (haccess : hex env.accessTokenBytes.toList ≠ hex env'.accessTokenBytes.toList)
    (hrefresh : hex env.refreshTokenBytes.toList ≠ hex env'.refreshTokenBytes.toList) :
    ∃ m calls₁ st',
      Run (ReadCommitted.Step (Refresher.client app)) ⟨s, calls⟩
        ((Refresher.insertPair ++ Refresher.finish).map (Prod.mk t)) ⟨m, calls₁⟩ ∧
      calls₁ t = Refresher.respond app env req current (Refresher.newAccessToken app env client user) ∧
      (∀ u ≠ t, calls₁ u = calls u) ∧
      Run (ReadCommitted.Step (Refresher.client app)) ⟨m, calls₁⟩
        ((Refresher.insertPair ++ Refresher.finish).map (Prod.mk t')) st' ∧
      ∀ u ∈ [t, t'], ∃ new newRefresh, RotatedInto current (st'.clients u) new newRefresh ∧
        new ∈ st'.committed.accessTokens ∧ newRefresh ∈ st'.committed.refreshTokens := by
  generalize hnew : Refresher.newAccessToken app env client user = new
  generalize hnew' : Refresher.newAccessToken app env' client user = new'
  have hid : new.id = hex env.accessTokenBytes.toList := by rw [← hnew]; rfl
  have hid' : new'.id = hex env'.accessTokenBytes.toList := by rw [← hnew']; rfl
  -- the first rotates it
  obtain ⟨m, hi⟩ : ∃ m, s.insertTokens new (Refresher.newRefreshToken app env new) = .ok m := by
    rw [← hnew, Refresher.newAccessToken, hc, hu]
    exact (insertTokens_for_old ho).mpr hfresh
  obtain ⟨hacc, href, -⟩ := Store.insertTokens_eq_ok hi
  have hpresent : Refresher.Present old.id m := ⟨old, (hacc old).mpr (.inr ho), rfl⟩
  obtain ⟨calls₁, hrun₁, hquiet₁, ht₁, hothers₁⟩ := Client.run_alone hquiet ht
    (Refresher.rotate_alone hnew hi) rfl
  rw [if_pos hpresent] at hrun₁
  -- the second still can, and finds nothing to destroy
  have hclient : new'.client_id = old.client_id := by rw [← hnew', ← hc]; rfl
  have huser : new'.user_id = old.user_id := by rw [← hnew', ← hu]; rfl
  have hids : new.id ≠ new'.id := by rw [hid, hid']; exact haccess
  have howner : (Refresher.newRefreshToken app env' new').access_token_id = new'.id := rfl
  obtain ⟨m', hi', hgone⟩ := insertTokens_after_rotation ho hi hclient huser howner
    (hid' ▸ hfresh'.accessToken) hids hfresh'.refreshToken hrefresh
  obtain ⟨hacc', href', -⟩ := Store.insertTokens_eq_ok hi'
  obtain ⟨calls₂, hrun₂, -, ht₂, hothers₂⟩ := Client.run_alone hquiet₁
    ((hothers₁ t' hne).trans ht') (Refresher.rotate_alone hnew' hi') rfl
  rw [if_neg hgone] at hrun₂
  refine ⟨_, calls₁, _, hrun₁, ht₁, hothers₁, hrun₂, ?_⟩
  have hne_old : new.id ≠ old.id := fun h => hfresh.accessToken old ho (h.symm.trans hid)
  simp only [List.forall_mem_cons, List.not_mem_nil, false_implies, implies_true, and_true]
  refine ⟨⟨new, Refresher.newRefreshToken app env new,
    ⟨current, _, by rw [hothers₂ t hne.symm, ht₁]; rfl, rfl⟩, ?_, ?_⟩,
    new', Refresher.newRefreshToken app env' new', ⟨current, _, by rw [ht₂]; rfl, rfl⟩,
    (hacc' new').mpr (.inl rfl), (href' _).mpr (.inl rfl)⟩
  · exact (hacc' new).mpr (.inr (Store.mem_deleteAccessToken.mpr
      ⟨(hacc new).mpr (.inl rfl), hne_old⟩))
  · exact (href' _).mpr (.inr (Store.mem_deleteAccessToken_refreshTokens.mpr
      ⟨(href _).mpr (.inl rfl), hne_old⟩))

/-- **Main theorem**: two granted requests with one refresh token both rotate it, into two pairs
    that are both left in the tables, if both load the old access token before either commits. -/
theorem rotated_twice {env' : Env} {req' : Request} {payload payload' : Json}
    {authenticated authenticated' : ClientModel} {t' : τ} (hne : t' ≠ t)
    (hreceived : ∀ u, (calls u).state = .received) (ht : calls t = ⟨env, req, .received⟩)
    (ht' : calls t' = ⟨env', req', .received⟩)
    (hg : RefreshGranted app env req s payload authenticated current)
    (hg' : RefreshGranted app env' req' s payload' authenticated' current)
    (hfresh : env.Fresh s) (hfresh' : env'.Fresh s)
    (haccess : hex env.accessTokenBytes.toList ≠ hex env'.accessTokenBytes.toList)
    (hrefresh : hex env.refreshTokenBytes.toList ≠ hex env'.refreshTokenBytes.toList) :
    ∃ es st', Run (ReadCommitted.Step (Refresher.client app)) ⟨s, calls⟩ es st' ∧
      ∀ u ∈ [t, t'], ∃ new newRefresh, RotatedInto current (st'.clients u) new newRefresh ∧
        new ∈ st'.committed.accessTokens ∧ newRefresh ∈ st'.committed.refreshTokens := by
  have hquiet : (Refresher.client app).Quiet calls := fun u => by
    show (calls u).writes = []
    rw [Refresher.writes, hreceived u]
  obtain ⟨hguard, old, client, user, hload, hc, hu⟩ := hg.lookUp
  obtain ⟨⟨ho, eo⟩, -⟩ := Refresher.loadFor_eq_ok.mp hload
  obtain ⟨calls₁, hrun₁, hquiet₁, ht₁, hothers₁⟩ := Client.run_alone hquiet ht
    (Refresher.lookUp_alone hguard hload) rfl
  obtain ⟨calls₂, hrun₂, hquiet₂, ht₂, hothers₂⟩ := Client.run_alone hquiet₁
    ((hothers₁ t' hne).trans ht') (Refresher.lookUp_alone hg'.lookUp.1 hload) rfl
  obtain ⟨m, calls₃, st', hrun₃, -, -, hrun₄, hboth⟩ := rotate_both hne hquiet₂
    ((hothers₂ t hne.symm).trans ht₁) ht₂ ho hc hu hfresh hfresh' haccess hrefresh
  exact ⟨_, _, Run.append_iff.mpr ⟨_, hrun₁, Run.append_iff.mpr ⟨_, hrun₂, Run.append_iff.mpr
    ⟨_, hrun₃, hrun₄⟩⟩⟩, hboth⟩

end Runs

end Once

/-- Nothing changes the environment of a request. -/
theorem run_env {τ : Type} [DecidableEq τ] {app : App} {st st' : State Store τ Refresher}
    {es : List (τ × RefreshStep)} (h : Run (ReadCommitted.Step (Refresher.client app)) st es st')
    (t : τ) : (st'.clients t).env = (st.clients t).env := by
  refine h.invariant (P := fun m => (m.clients t).env = (st.clients t).env) ?_ rfl
  rintro m e m' hm ⟨hmove, -⟩
  rename_i u a move
  by_cases hu : t = u
  · subst hu
    have hnext : move.next.env = (m.clients t).env := by
      have hmoves := Refresher.moves_of_move hmove
      generalize (m.clients t).state = s at hmoves
      cases hmoves <;> rfl
    simpa [hnext] using hm
  · simpa [hu] using hm

namespace Sample

def tokenStore : Store := performAll app passwordRun .empty

/-- The refresh token `3`. -/
def refreshToken : RefreshTokenModel :=
  (env 5 3).refreshToken (hex (env 5 3).accessTokenBytes.toList) (some 2005)

/-- Two requests with the refresh token `3` at time 9. -/
def refreshes (t : Fin 2) : Refresher := ⟨env 9 (if t = 0 then 5 else 6), refreshRequest, .received⟩

theorem refreshToken_mem : refreshToken ∈ tokenStore.refreshTokens := by decide

theorem fresh (t : Fin 2) : (refreshes t).env.Fresh tokenStore := by
  constructor <;> revert t <;> decide

theorem fresh_access :
    hex (refreshes 0).env.accessTokenBytes.toList ≠ refreshToken.access_token_id := by
  decide

theorem fresh_refresh : hex (refreshes 0).env.refreshTokenBytes.toList ≠ refreshToken.id := by
  decide

theorem refresh_granted (t : Fin 2) : ∃ payload client, RefreshGranted app (refreshes t).env
    refreshRequest tokenStore payload client refreshToken := by
  obtain ⟨-, -, -, payload, client, current, hg⟩ := postRefresh_isOk.mp (Action.returns_iff.mp
    (show Action.returns (postRefresh app (env 9 5) refreshRequest) tokenStore = true by
      decide))
  have honly : ∀ r ∈ tokenStore.refreshTokens, r = refreshToken := by decide
  cases honly current hg.mem
  exact ⟨payload, client, hg.accept, hg.content, hg.credentials, hg.mem, hg.bearer, hg.active⟩

end Sample

/-- One of the two succeeds. The other has passed the guard and begun its transaction before, but
    loads the old access token after the commit, and finds it gone. -/
theorem rotated_once_sample : ∃ es st',
    Run (ReadCommitted.Step (Refresher.client Sample.app))
      ⟨Sample.tokenStore, Sample.refreshes⟩ es st' ∧
    (∃ new newRefresh, RotatedInto Sample.refreshToken (st'.clients 0) new newRefresh) ∧
    (st'.clients 1).state = .rejected (.error "Access token not found") ∧
      RotatedOnce Sample.refreshToken st' := by
  obtain ⟨payload, authenticated, hg⟩ := Sample.refresh_granted 0
  obtain ⟨payload', authenticated', hg'⟩ := Sample.refresh_granted 1
  obtain ⟨hguard, old, client, user, hload, hc, hu⟩ := hg.lookUp
  obtain ⟨⟨ho, eo⟩, -⟩ := Refresher.loadFor_eq_ok.mp hload
  generalize hnew : Refresher.newAccessToken Sample.app (Sample.refreshes 0).env client user = new
  obtain ⟨m, hi⟩ : ∃ m, Sample.tokenStore.insertTokens new
      (Refresher.newRefreshToken Sample.app (Sample.refreshes 0).env new) = .ok m := by
    rw [← hnew, Refresher.newAccessToken, hc, hu]
    exact (insertTokens_for_old ho).mpr (Sample.fresh 0)
  have hpresent : Refresher.Present old.id m :=
    ⟨old, ((Store.insertTokens_eq_ok hi).1 old).mpr (.inr ho), rfl⟩
  obtain ⟨hpair, hview⟩ := Refresher.insertPair_alone hnew rfl hi
  have hquiet : (Refresher.client Sample.app).Quiet Sample.refreshes := fun _ => rfl
  obtain ⟨calls₁, hrun₁, hquiet₁, ht₁, hothers₁⟩ := Client.run_alone hquiet
    (rfl : Sample.refreshes 1 = _) (Refresher.begin_alone hg'.lookUp.1) rfl
  obtain ⟨calls₂, hrun₂, ht₂, hothers₂⟩ := Client.run_while (hothers₁ 0 (by decide))
    (fun t _ => hquiet₁ t)
    ((Client.runAlone_append (Refresher.lookUp_alone hguard hload)).trans hpair)
  have hquiet₂ : ∀ t ≠ 0, (Refresher.client Sample.app).writes (calls₂ t) = [] := fun t ht => by
    rw [hothers₂ t ht]
    exact hquiet₁ t
  obtain ⟨calls₃, hrun₃, ht₃, hothers₃⟩ :=
    Client.run_while ht₂ hquiet₂ (Refresher.finish_alone rfl hview)
  rw [if_pos hpresent] at hrun₃
  have hquiet₃ : (Refresher.client Sample.app).Quiet calls₃ := fun t => by
    by_cases ht : t = 0
    · rw [ht, ht₃]
      rfl
    · rw [hothers₃ t ht]
      exact hquiet₂ t ht
  have hgone : ¬ Refresher.Present Sample.refreshToken.access_token_id
      (m.deleteAccessToken old.id) := eo ▸ Refresher.not_present_deleteAccess
  obtain ⟨calls₄, hrun₄, -, ht₄, hothers₄⟩ := Client.run_alone hquiet₃
    (((hothers₃ 1 (by decide)).trans (hothers₂ 1 (by decide))).trans ht₁)
    (Refresher.load_gone_alone hgone) rfl
  have hrun := Run.append_iff.mpr ⟨_, hrun₁, Run.append_iff.mpr ⟨_, hrun₂,
    Run.append_iff.mpr ⟨_, hrun₃, hrun₄⟩⟩⟩
  have hrotated := congrArg Refresher.state ((hothers₄ 0 (by decide)).trans ht₃)
  refine ⟨_, _, hrun, ⟨new, _, _, _, hrotated, rfl⟩, congrArg Refresher.state ht₄,
    rotated_once Sample.refreshToken_mem (fun _ => rfl) hrun ?_⟩
  refine Along.append_of_run ReadCommitted.Step.unique hrun₁ (Along.of_forall ?_)
    (Along.append_of_run ReadCommitted.Step.unique hrun₂ ?_ (.cons ?_ fun m' _ =>
      Along.of_forall ?_))
  · simp [FindsOldToken]
  · intro pre e post m' hes hpre
    have henv : (m'.clients 0).env = (Sample.refreshes 0).env :=
      (run_env hpre 0).trans (congrArg Refresher.env (hothers₁ 0 (by decide)))
    have he : e ∈ (Refresher.lookUp ++ Refresher.insertPair).map (Prod.mk (0 : Fin 2)) := by
      rw [hes]
      simp
    simp only [Refresher.lookUp, Refresher.insertPair, List.cons_append, List.nil_append,
      List.map_cons, List.map_nil, List.mem_cons, List.not_mem_nil, or_false] at he
    rcases he with rfl | rfl | rfl | rfl | rfl
    · trivial
    · trivial
    · trivial
    · show hex (m'.clients 0).env.accessTokenBytes.toList ≠ _
      rw [henv]
      exact Sample.fresh_access
    · show hex (m'.clients 0).env.refreshTokenBytes.toList ≠ _
      rw [henv]
      exact Sample.fresh_refresh
  · unfold FindsOldToken
    simp only [ht₂]
    exact fun _ => ⟨old, ho, rfl⟩
  · simp [FindsOldToken]

/-- Two concurrent requests with one refresh token both succeed. -/
theorem refresh_token_rotated_twice : Reachable Sample.app Sample.tokenStore ∧
    Sample.refreshToken ∈ Sample.tokenStore.refreshTokens ∧
      ∃ es st', Run (ReadCommitted.Step (Refresher.client Sample.app))
        ⟨Sample.tokenStore, Sample.refreshes⟩ es st' ∧ ¬ RotatedOnce Sample.refreshToken st' := by
  obtain ⟨payload, authenticated, hg⟩ := Sample.refresh_granted 0
  obtain ⟨payload', authenticated', hg'⟩ := Sample.refresh_granted 1
  obtain ⟨es, st', hrun, h⟩ := rotated_twice (show (1 : Fin 2) ≠ 0 by decide) (fun _ => rfl)
    (rfl : Sample.refreshes 0 = _) (rfl : Sample.refreshes 1 = _) hg hg' (Sample.fresh 0)
    (Sample.fresh 1) (by decide) (by decide)
  obtain ⟨new, newRefresh, h₀, -⟩ := h 0 (by simp)
  obtain ⟨new', newRefresh', h₁, -⟩ := h 1 (by simp)
  exact ⟨⟨_, run_performAll _ _ _⟩, Sample.refreshToken_mem, es, st', hrun,
    fun honce => absurd (honce 0 1 _ _ _ _ h₀ h₁).1 (by decide)⟩

end NestTemplate
