import NestTemplate.Auth.ConcurrentRefresh
import NestTemplate.Auth.TokenPairs

/-!
# Pairs of tokens under concurrency

Two requests can rotate one refresh token (`rotated_twice`). This module says
what interleaving does not break: a new pair becomes visible as a whole, so in
every committed state each access token has one refresh token, wherever requests
stand and whichever of their statements fail.

* `Refresher.Pending`: what a transaction has inserted can still be committed.
  The row locks keep it so (`Client.Exclusive`).
* `interleaved_pairs`: the committed tables are paired in every reachable state.
* `interleaved_logins`: the logins grow by one with every commit whose `destroy`
  came too late, and change in no other way.
-/

namespace NestTemplate

open Common ReadCommitted

namespace Refresher

/-! ## What an open transaction has inserted -/

/-- The rows that a request has inserted can be inserted into `s`. -/
def Pending (s : Store) (l : Refresher) : Prop :=
  match l.state with
  | .createdAccessToken _ _ new => ∃ m, s.insertAccessToken new = .ok m
  | .createdTokens _ _ new newRefresh | .destroyed _ _ new newRefresh _ =>
    newRefresh.access_token_id = new.id ∧ ∃ m, s.insertTokens new newRefresh = .ok m
  | _ => True

/-- The rows of `s'` are rows of `s` or not locked by `l`; clients and users are the same. -/
structure Avoids (l : Refresher) (s s' : Store) : Prop where
  clients : s'.clients = s.clients
  users : s'.users = s.users
  accessTokens : ∀ b ∈ s'.accessTokens, b ∈ s.accessTokens ∨
    ∀ w ∈ l.writes, TokenRow.accessToken b.id ∉ w.locks
  refreshTokens : ∀ x ∈ s'.refreshTokens, x ∈ s.refreshTokens ∨
    ∀ w ∈ l.writes, TokenRow.refreshToken x.id ∉ w.locks

theorem Avoids.insertAccessToken {l : Refresher} {s s' : Store} {new : AccessTokenModel}
    (h : Avoids l s s') (hw : insertAccess new ∈ l.writes)
    (hi : ∃ m, s.insertAccessToken new = .ok m) : ∃ m, s'.insertAccessToken new = .ok m := by
  rw [Store.insertAccessToken_isOk] at hi ⊢
  rw [h.clients, h.users]
  refine ⟨fun b hb hid => ?_, hi.2⟩
  rcases h.accessTokens b hb with hold | hfree
  · exact hi.1 b hold hid
  · exact hfree _ hw (congrArg TokenRow.accessToken hid)

theorem Avoids.insertTokens {l : Refresher} {s s' : Store} {new : AccessTokenModel}
    {newRefresh : RefreshTokenModel} (h : Avoids l s s') (hw : insertAccess new ∈ l.writes)
    (hw' : insertRefresh newRefresh ∈ l.writes) (href : newRefresh.access_token_id = new.id)
    (hi : ∃ m, s.insertTokens new newRefresh = .ok m) :
    ∃ m, s'.insertTokens new newRefresh = .ok m := by
  rw [Store.insertTokens_isOk href, ← Store.insertAccessToken_isOk] at hi ⊢
  refine ⟨h.insertAccessToken hw hi.1, fun x hx hid => ?_⟩
  rcases h.refreshTokens x hx with hold | hfree
  · exact hi.2 x hold hid
  · exact hfree _ hw' (congrArg TokenRow.refreshToken hid)

/-- What others commit does not get in the way of rows that are locked. -/
theorem Pending.avoids {l : Refresher} {s s' : Store} (hl : Pending s l) (h : Avoids l s s') :
    Pending s' l := by
  obtain ⟨env, request, state⟩ := l
  cases state with
  | createdAccessToken current old new => exact h.insertAccessToken (List.mem_cons_self ..) hl
  | createdTokens current old new newRefresh =>
    exact ⟨hl.1, h.insertTokens (List.mem_cons_self ..) (List.mem_cons_of_mem _ (List.mem_cons_self ..))
      hl.1 hl.2⟩
  | destroyed current old new newRefresh deleted =>
    refine ⟨hl.1, h.insertTokens ?_ ?_ hl.1 hl.2⟩ <;> cases deleted <;> simp [writes]
  | _ => trivial

/-! ## What a commit does -/

/-- The rows that the transaction of `new` and `newRefresh` commits, with the old access token
    deleted or not. -/
theorem applyAll_pair {s m : Store} {new : AccessTokenModel} {newRefresh : RefreshTokenModel}
    (hi : s.insertTokens new newRefresh = .ok m) :
    applyAll [insertAccess new, insertRefresh newRefresh] s = m := by
  unfold Store.insertTokens at hi
  split at hi
  · rename_i m₁ hi₁
    show (insertRefresh newRefresh).apply ((insertAccess new).apply s) = m
    rw [insertAccess_ok hi₁, insertRefresh_ok hi]
  · cases hi

/-- What a transaction that has inserted its pair and destroyed the access token `id` commits. -/
inductive Committed (s : Store) (id : String) (new : AccessTokenModel)
    (newRefresh : RefreshTokenModel) : Bool → Store → Prop
  | late {m : Store} (h : PairAdded s new newRefresh m) (hc : m.clients = s.clients)
      (hu : m.users = s.users) : Committed s id new newRefresh false m
  | inTime {m : Store} (h : PairAdded s new newRefresh m) (hc : m.clients = s.clients)
      (hu : m.users = s.users) : Committed s id new newRefresh true (m.deleteAccessToken id)

theorem pairAdded_of_insertTokens {s m : Store} {new : AccessTokenModel}
    {newRefresh : RefreshTokenModel} (href : newRefresh.access_token_id = new.id)
    (hi : s.insertTokens new newRefresh = .ok m) : PairAdded s new newRefresh m := by
  obtain ⟨ha, hr, -⟩ := Store.insertTokens_eq_ok hi
  exact ⟨.of_insertTokens href hi, ha, hr⟩

theorem committed_of_pending {l : Refresher} {s : Store} (hl : Pending s l)
    {current : RefreshTokenModel} {old new : AccessTokenModel} {newRefresh : RefreshTokenModel}
    {deleted : Bool} (hs : l.state = .destroyed current old new newRefresh deleted) :
    Committed s old.id new newRefresh deleted (applyAll l.writes s) := by
  unfold Pending at hl
  rw [hs] at hl
  obtain ⟨href, m, hi⟩ := hl
  have hadd := pairAdded_of_insertTokens href hi
  obtain ⟨-, -, hu, hc, -⟩ := Store.insertTokens_eq_ok hi
  unfold writes
  rw [hs]
  cases deleted with
  | false =>
    show Committed s old.id new newRefresh false
      (applyAll [insertAccess new, insertRefresh newRefresh] s)
    rw [applyAll_pair hi]
    exact .late hadd hc hu
  | true =>
    show Committed s old.id new newRefresh true ((deleteAccess old.id).apply
      (applyAll [insertAccess new, insertRefresh newRefresh] s))
    rw [applyAll_pair hi]
    exact .inTime hadd hc hu

section

variable {s s' : Store} {id : String} {new : AccessTokenModel} {newRefresh : RefreshTokenModel}
  {deleted : Bool}

theorem Committed.paired (h : Committed s id new newRefresh deleted s') (hs : Paired s) :
    Paired s' := by
  cases h with
  | late hadd => exact hs.pairAdded hadd
  | inTime hadd =>
    exact (hs.pairAdded hadd).retained
      ⟨fun _ => Store.mem_deleteAccessToken, fun _ => Store.mem_refreshTokens_retain⟩

/-- The rows of others that are locked are not committed by it. -/
theorem Committed.avoids (h : Committed s id new newRefresh deleted s') {l : Refresher}
    (ha : ∀ w ∈ l.writes, TokenRow.accessToken new.id ∉ w.locks)
    (hr : ∀ w ∈ l.writes, TokenRow.refreshToken newRefresh.id ∉ w.locks) : Avoids l s s' := by
  cases h with
  | late hadd hc hu =>
    refine ⟨hc, hu, fun b hb => ?_, fun x hx => ?_⟩
    · rcases (hadd.accessTokens b).mp hb with rfl | hb
      · exact .inr ha
      · exact .inl hb
    · rcases (hadd.refreshTokens x).mp hx with rfl | hx
      · exact .inr hr
      · exact .inl hx
  | inTime hadd hc hu =>
    refine ⟨(Store.deleteAccessToken_clients _ _).trans hc,
      (Store.deleteAccessToken_users _ _).trans hu, fun b hb => ?_, fun x hx => ?_⟩
    · rcases (hadd.accessTokens b).mp (Store.mem_deleteAccessToken.mp hb).1 with rfl | hb
      · exact .inr ha
      · exact .inl hb
    · rcases (hadd.refreshTokens x).mp (Store.mem_deleteAccessToken_refreshTokens.mp hx).1 with
        rfl | hx
      · exact .inr hr
      · exact .inl hx

/-- A commit adds the access token that was inserted, and nothing else. -/
theorem Committed.accessTokens (h : Committed s id new newRefresh deleted s') {b : AccessTokenModel}
    (hb : b ∈ s'.accessTokens) : b ∈ s.accessTokens ∨ b = new := by
  cases h with
  | late hadd => exact ((hadd.accessTokens b).mp hb).symm
  | inTime hadd => exact ((hadd.accessTokens b).mp (Store.mem_deleteAccessToken.mp hb).1).symm

/-- Another access token than the one destroyed stays. -/
theorem Committed.present (h : Committed s id new newRefresh deleted s') {other : String}
    (hother : deleted = true → other ≠ id) (hp : Present other s) : Present other s' := by
  obtain ⟨b, hb, rfl⟩ := hp
  cases h with
  | late hadd => exact ⟨b, (hadd.accessTokens b).mpr (.inr hb), rfl⟩
  | inTime hadd =>
    exact ⟨b, Store.mem_deleteAccessToken.mpr
      ⟨(hadd.accessTokens b).mpr (.inr hb), hother rfl⟩, rfl⟩

end

/-! ## Every step -/

/-- An insert that goes through on what a request sees can be committed. -/
theorem move_insertAccessToken {app : App} {l : Refresher} {view : Store}
    {current : RefreshTokenModel} {old : AccessTokenModel} {c : ClientModel}
    {user : Option UserModel} {m : Move Store TokenRow Refresher}
    (hs : l.state = .loaded current old c user)
    (hm : move app l .insertAccessToken view = some m) :
    (∃ e, m = .rollback { l with state := .rejected e }) ∨
      ∃ st', view.insertAccessToken (newAccessToken app l.env c user) = .ok st' := by
  simp only [move, hs] at hm
  cases hi : view.insertAccessToken (newAccessToken app l.env c user) with
  | ok st' => exact .inr ⟨st', rfl⟩
  | error e =>
    rw [hi] at hm
    cases hm
    exact .inl ⟨e, rfl⟩

theorem move_insertRefreshToken {app : App} {l : Refresher} {view : Store}
    {current : RefreshTokenModel} {old new : AccessTokenModel} {m : Move Store TokenRow Refresher}
    (hs : l.state = .createdAccessToken current old new)
    (hm : move app l .insertRefreshToken view = some m) :
    (∃ e, m = .rollback { l with state := .rejected e }) ∨
      ∃ st', view.insertRefreshToken (newRefreshToken app l.env new) = .ok st' := by
  simp only [move, hs] at hm
  cases hi : view.insertRefreshToken (newRefreshToken app l.env new) with
  | ok st' => exact .inr ⟨st', rfl⟩
  | error e =>
    rw [hi] at hm
    cases hm
    exact .inl ⟨e, rfl⟩

theorem pending_next {app : App} {l : Refresher} {s : Store} {a : RefreshStep}
    {m : Move Store TokenRow Refresher} (hl : Pending s l)
    (hm : move app l a (applyAll l.writes s) = some m) : Pending s m.next := by
  have hmoves := moves_of_move hm
  unfold Pending at hl
  generalize hs : l.state = state at hmoves hl
  cases hmoves with
  | @insertAccessToken current old c user =>
    rcases move_insertAccessToken hs hm with ⟨e, he⟩ | ⟨st', hi⟩
    · cases he
    · have hw : l.writes = [] := by rw [writes, hs]
      rw [hw] at hi
      exact ⟨st', hi⟩
  | @insertRefreshToken current old new =>
    rcases move_insertRefreshToken hs hm with ⟨e, he⟩ | ⟨st', hi⟩
    · cases he
    · obtain ⟨m₁, hm₁⟩ := hl
      have hw : l.writes = [insertAccess new] := by rw [writes, hs]
      rw [hw, show applyAll [insertAccess new] s = m₁ from insertAccess_ok hm₁] at hi
      exact ⟨rfl, st', by rw [Store.insertTokens, hm₁]; exact hi⟩
  | deleted => exact hl
  | gone => exact hl
  | _ => trivial

end Refresher

section Interleaved

variable {τ : Type} [DecidableEq τ] {app : App} {st st' : State Store τ Refresher}

/-- The committed tokens are paired, and what is pending can be committed. -/
structure PairsInvariant (app : App) (st : State Store τ Refresher) : Prop where
  paired : Paired st.committed
  pending : ∀ t, Refresher.Pending st.committed (st.clients t)
  exclusive : (Refresher.client app).Exclusive st

theorem PairsInvariant.step {e : τ × RefreshStep} (h : PairsInvariant app st)
    (hstep : ReadCommitted.Step (Refresher.client app) st e st') : PairsInvariant app st' := by
  have hexclusive := hstep.exclusive h.exclusive
  obtain ⟨hm, -⟩ := hstep
  rename_i t a m
  have hnext : Refresher.Pending st.committed m.next := Refresher.pending_next (h.pending t) hm
  have hmoves := Refresher.moves_of_move hm
  generalize hs : (st.clients t).state = state at hmoves
  have quiet : ∀ {l : Refresher}, Refresher.Pending st.committed l → ∀ u, Refresher.Pending
      st.committed (Function.update st.clients t l u) := by
    intro l hl u
    by_cases hu : u = t
    · subst hu
      rwa [Function.update_self]
    · rw [Function.update_of_ne hu]
      exact h.pending u
  cases hmoves with
  | @commit current old new newRefresh deleted =>
    have hcommitted := Refresher.committed_of_pending (h.pending t) hs
    refine ⟨hcommitted.paired h.paired, fun u => ?_, hexclusive⟩
    by_cases hu : u = t
    · subst hu
      simp only [Function.update_self]
      trivial
    · simp only [Function.update_of_ne hu]
      refine (h.pending u).avoids (hcommitted.avoids (fun w hw => ?_) fun w hw => ?_)
      · refine h.exclusive t u (Ne.symm hu) (Refresher.insertAccess new) ?_ w hw _ rfl
        show _ ∈ Refresher.writes _
        rw [Refresher.writes, hs]
        cases deleted <;> simp
      · refine h.exclusive t u (Ne.symm hu) (Refresher.insertRefresh newRefresh) ?_ w hw _ rfl
        show _ ∈ Refresher.writes _
        rw [Refresher.writes, hs]
        cases deleted <;> simp
  | _ => exact ⟨h.paired, quiet hnext, hexclusive⟩

omit [DecidableEq τ] in
theorem PairsInvariant.of_received (hpaired : Paired st.committed)
    (hreceived : ∀ t, (st.clients t).state = .received) : PairsInvariant app st := by
  refine ⟨hpaired, fun t => ?_, Client.exclusive_of_quiet fun t => ?_⟩
  · unfold Refresher.Pending
    rw [hreceived t]
    trivial
  · show Refresher.writes _ = []
    rw [Refresher.writes, hreceived t]

/-- **Main theorem**: whatever requests do to however many refresh tokens at once, and whichever of
    their statements fail, in every committed state each access token has one refresh token. -/
theorem interleaved_pairs {es : List (τ × RefreshStep)} (hpaired : Paired st.committed)
    (hreceived : ∀ t, (st.clients t).state = .received)
    (hrun : Run (ReadCommitted.Step (Refresher.client app)) st es st') :
    Paired st'.committed := by
  have hinit : PairsInvariant app st := .of_received hpaired hreceived
  exact (hrun.invariant (fun _ _ _ h hstep => h.step hstep) hinit).paired

end Interleaved

theorem Sample.tokenStore_paired : Paired Sample.tokenStore := by
  refine (run_performAll Sample.app Sample.passwordRun .empty).invariant (P := Paired) ?_ paired_empty
  rintro s op t hs rfl
  exact hs.step (token_change Sample.app op s)

/-- Two requests that rotate one refresh token. -/
theorem interleaved_pairs_sample : ∃ es st',
    Run (ReadCommitted.Step (Refresher.client Sample.app))
      ⟨Sample.tokenStore, Sample.refreshes⟩ es st' ∧
    ¬ RotatedOnce Sample.refreshToken st' ∧ Paired st'.committed := by
  obtain ⟨-, -, es, st', hrun, htwice⟩ := refresh_token_rotated_twice
  exact ⟨es, st', hrun, htwice, interleaved_pairs Sample.tokenStore_paired (fun _ => rfl) hrun⟩

/-! ## Logins -/

/-- Whose login an access token is. -/
def AccessTokenModel.owner (a : AccessTokenModel) : Uuid × Option ℕ := (a.client_id, a.user_id)

namespace Refresher

/-- The access token that a request is about to replace. -/
def loaded (l : Refresher) : Option AccessTokenModel :=
  match l.state with
  | .loaded _ old _ _ | .createdAccessToken _ old _ | .createdTokens _ old _ _
  | .destroyed _ old _ _ _ => some old
  | _ => none

/-- The access token that a request has inserted and not committed. -/
def created (l : Refresher) : Option AccessTokenModel :=
  match l.state with
  | .createdAccessToken _ _ new | .createdTokens _ _ new _ | .destroyed _ _ new _ _ => some new
  | _ => none

/-- A request makes its new tokens for the owner of the old one. -/
def KeepsOwner (l : Refresher) : Prop :=
  match l.state with
  | .loaded _ old client user => (client.id, user.map (·.id)) = old.owner
  | .createdAccessToken _ old new | .createdTokens _ old new _ | .destroyed _ old new _ _ =>
    new.owner = old.owner
  | _ => True

/-- The access token that goes by the id of the one a request has loaded is of the same owner. -/
def Owners (s : Store) (l : Refresher) : Prop :=
  ∀ old ∈ l.loaded, ∀ b ∈ s.accessTokens, b.id = old.id → b.owner = old.owner

/-- What a request has deleted is still committed. -/
def Held (s : Store) (l : Refresher) : Prop :=
  ∀ current old new newRefresh, l.state = .destroyed current old new newRefresh true →
    Present old.id s

theorem getUser_id {a : AccessTokenModel} {s : Store} (ha : a ∈ s.accessTokens) :
    (RefreshTokenRepoService.getUser a s).map (·.id) = a.user_id := by
  unfold RefreshTokenRepoService.getUser
  cases hi : a.user_id with
  | none => rfl
  | some i =>
    obtain ⟨u, hu, eu⟩ := s.accessToken_user a ha i hi
    rw [Option.bind_some, ← eu, Table.find?_key hu, Option.map_some]

theorem keepsOwner_next {app : App} {l : Refresher} {view : Store} {a : RefreshStep}
    {m : Move Store TokenRow Refresher} (hl : l.KeepsOwner) (hm : move app l a view = some m) :
    m.next.KeepsOwner := by
  have hmoves := moves_of_move hm
  unfold KeepsOwner at hl
  generalize hs : l.state = state at hmoves hl
  cases hmoves with
  | load h =>
    obtain ⟨⟨hmem, -⟩, ⟨-, hid⟩, rfl⟩ := loadFor_eq_ok.mp h
    exact Prod.ext hid (getUser_id hmem)
  | insertAccessToken | insertRefreshToken | deleted | gone => exact hl
  | _ => trivial

/-- A request has loaded what it had loaded before, or what it finds committed. -/
theorem loaded_next {app : App} {l : Refresher} {s : Store} {a : RefreshStep}
    {m : Move Store TokenRow Refresher} (hm : move app l a (applyAll l.writes s) = some m)
    {old : AccessTokenModel} (h : old ∈ m.next.loaded) :
    old ∈ l.loaded ∨ (a ≠ .insertAccessToken ∧ old ∈ s.accessTokens) := by
  have hmoves := moves_of_move hm
  unfold loaded
  generalize hs : l.state = state at hmoves
  cases hmoves with
  | load hload =>
    obtain ⟨⟨hmem, -⟩, -⟩ := loadFor_eq_ok.mp hload
    cases h
    have hw : l.writes = [] := by rw [writes, hs]
    rw [hw] at hmem
    exact .inr ⟨by simp, hmem⟩
  | insertAccessToken | insertRefreshToken | deleted | gone => exact .inl h
  | _ => cases h

/-- A request has inserted what it had inserted before, or what it inserts now. -/
theorem created_next {app : App} {l : Refresher} {view : Store} {a : RefreshStep}
    {m : Move Store TokenRow Refresher} (hm : move app l a view = some m)
    {new : AccessTokenModel} (h : new ∈ m.next.created) :
    new ∈ l.created ∨
      (a = .insertAccessToken ∧ new.id = hex l.env.accessTokenBytes.toList) := by
  have hmoves := moves_of_move hm
  unfold created
  generalize hs : l.state = state at hmoves
  cases hmoves with
  | insertAccessToken =>
    cases h
    exact .inr ⟨rfl, rfl⟩
  | insertRefreshToken | deleted | gone => exact .inl h
  | _ => cases h

/-- What a request has inserted is committed under no row's id. -/
theorem Pending.fresh {l : Refresher} {s : Store} (hl : Pending s l) {new : AccessTokenModel}
    (h : new ∈ l.created) : ∀ b ∈ s.accessTokens, b.id ≠ new.id := by
  obtain ⟨env, request, state⟩ := l
  cases state with
  | createdAccessToken current old new' =>
    cases h
    exact (Store.insertAccessToken_isOk.mp hl).1
  | createdTokens current old new' newRefresh | destroyed current old new' newRefresh deleted =>
    cases h
    exact ((Store.insertTokens_isOk hl.1).mp hl.2).1.1
  | _ => cases h

end Refresher

/-- No request makes an access token under the id of one that a request has loaded. -/
def FreshIds {τ : Type} (st : State Store τ Refresher) (e : τ × RefreshStep) : Prop :=
  e.2 = .insertAccessToken → ∀ u, ∀ old ∈ (st.clients u).loaded,
    hex (st.clients e.1).env.accessTokenBytes.toList ≠ old.id

/-- The login that a commit adds: one, if its destroy came too late to find the old access token. -/
def lateLogin {τ : Type} (st : State Store τ Refresher) (e : τ × RefreshStep) : Logins :=
  match e.2, (st.clients e.1).state with
  | .commit, .destroyed _ _ new _ false => {new.owner}
  | _, _ => 0

/-- A run with the logins that its commits add. -/
inductive LateRun {τ : Type} [DecidableEq τ] (app : App) :
    State Store τ Refresher → List (τ × RefreshStep) → Logins → State Store τ Refresher → Prop
  | nil (st : State Store τ Refresher) : LateRun app st [] 0 st
  | cons {st m st' : State Store τ Refresher} {e : τ × RefreshStep}
      {es : List (τ × RefreshStep)} {late : Logins}
      (hstep : ReadCommitted.Step (Refresher.client app) st e m) (hrest : LateRun app m es late st') :
      LateRun app st (e :: es) (lateLogin st e + late) st'

section Owned

variable {τ : Type} [DecidableEq τ] {app : App} {st st' : State Store τ Refresher}

/-- The requests keep the owners of the tokens apart. -/
structure OwnersInvariant (app : App) (st : State Store τ Refresher) : Prop
    extends PairsInvariant app st where
  keepsOwner : ∀ t, (st.clients t).KeepsOwner
  owners : ∀ t, (st.clients t).Owners st.committed
  apart : ∀ t u, ∀ new ∈ (st.clients t).created, ∀ old ∈ (st.clients u).loaded, new.id ≠ old.id
  held : ∀ t, (st.clients t).Held st.committed

/-- A step leaves the committed tables as they are, or commits what a request has written. -/
theorem committed_step {e : τ × RefreshStep} (h : PairsInvariant app st)
    (hstep : ReadCommitted.Step (Refresher.client app) st e st') :
    (st'.committed = st.committed ∧ lateLogin st e = 0) ∨
      ∃ current old new newRefresh deleted, e.2 = .commit ∧
        (st.clients e.1).state = .destroyed current old new newRefresh deleted ∧
          Refresher.Committed st.committed old.id new newRefresh deleted st'.committed := by
  obtain ⟨hm, -⟩ := hstep
  rename_i t a m
  have hmoves := Refresher.moves_of_move hm
  unfold lateLogin
  generalize hs : (st.clients t).state = state at hmoves
  cases hmoves with
  | @commit current old new newRefresh deleted =>
    exact .inr ⟨current, old, new, newRefresh, deleted, rfl, rfl,
      Refresher.committed_of_pending (h.pending t) hs⟩
  | @fail state a e =>
    refine .inl ⟨rfl, ?_⟩
    simp only [Refresher.client, Refresher.move, hs] at hm
    cases state <;> cases a <;> first | rfl | cases hm
  | _ => exact .inl ⟨rfl, rfl⟩

/-- The access tokens committed after a step were before it, or the request had inserted them. -/
theorem accessTokens_step {e : τ × RefreshStep} (h : PairsInvariant app st)
    (hstep : ReadCommitted.Step (Refresher.client app) st e st') {b : AccessTokenModel}
    (hb : b ∈ st'.committed.accessTokens) :
    b ∈ st.committed.accessTokens ∨ b ∈ (st.clients e.1).created := by
  rcases committed_step h hstep with ⟨heq, -⟩ | ⟨_, _, new, _, _, -, hs, hcommitted⟩
  · exact .inl (heq ▸ hb)
  · refine (hcommitted.accessTokens hb).imp_right ?_
    rintro rfl
    unfold Refresher.created
    rw [hs]
    exact rfl

theorem OwnersInvariant.apart_step {e : τ × RefreshStep} (h : OwnersInvariant app st)
    (hids : FreshIds st e) (hstep : ReadCommitted.Step (Refresher.client app) st e st') :
    ∀ t u, ∀ new ∈ (st'.clients t).created, ∀ old ∈ (st'.clients u).loaded, new.id ≠ old.id := by
  obtain ⟨hm, -⟩ := hstep
  rename_i t a m
  have hcreated : ∀ t', ∀ new ∈ (Function.update st.clients t m.next t').created,
      new ∈ (st.clients t').created ∨
        (a = .insertAccessToken ∧ new.id = hex (st.clients t).env.accessTokenBytes.toList) := by
    intro t' new hnew
    by_cases ht : t' = t
    · subst ht
      rw [Function.update_self] at hnew
      exact Refresher.created_next hm hnew
    · rw [Function.update_of_ne ht] at hnew
      exact .inl hnew
  have hloaded : ∀ u, ∀ old ∈ (Function.update st.clients t m.next u).loaded,
      old ∈ (st.clients u).loaded ∨
        (a ≠ .insertAccessToken ∧ old ∈ st.committed.accessTokens) := by
    intro u old hold
    by_cases hu : u = t
    · subst hu
      rw [Function.update_self] at hold
      exact Refresher.loaded_next hm hold
    · rw [Function.update_of_ne hu] at hold
      exact .inl hold
  intro t' u new hnew old hold
  rcases hcreated t' new hnew with hnew | ⟨rfl, hid⟩
  · rcases hloaded u old hold with hold | ⟨-, hmem⟩
    · exact h.apart t' u new hnew old hold
    · exact ((h.pending t').fresh hnew old hmem).symm
  · rcases hloaded u old hold with hold | ⟨hne, -⟩
    · rw [hid]
      exact hids rfl u old hold
    · exact absurd rfl hne

theorem OwnersInvariant.owners_step {e : τ × RefreshStep} (h : OwnersInvariant app st)
    (hstep : ReadCommitted.Step (Refresher.client app) st e st') :
    ∀ u, (st'.clients u).Owners st'.committed := by
  have hrows := fun b hb => accessTokens_step (b := b) h.toPairsInvariant hstep hb
  have hkeep : ∀ u, (st.clients u).Owners st'.committed := by
    intro u old hold b hb hid
    rcases hrows b hb with hmem | hnew
    · exact h.owners u old hold b hmem hid
    · exact absurd hid (h.apart e.1 u b hnew old hold)
  obtain ⟨hm, -⟩ := hstep
  rename_i t a m
  intro u
  by_cases hu : u = t
  · subst hu
    simp only [Function.update_self]
    intro old hold b hb hid
    rcases Refresher.loaded_next hm hold with hold | ⟨-, hmem⟩
    · exact hkeep u old hold b hb hid
    · rcases hrows b hb with hb | hnew
      · rw [Table.eq_of_key_eq hb hmem hid]
      · exact absurd hid.symm ((h.pending u).fresh hnew old hmem)
  · simp only [Function.update_of_ne hu]
    exact hkeep u

/-- A row that an open transaction has deleted stays committed until it ends. -/
theorem OwnersInvariant.held_step {e : τ × RefreshStep} (h : OwnersInvariant app st)
    (hstep : ReadCommitted.Step (Refresher.client app) st e st') :
    ∀ u, (st'.clients u).Held st'.committed := by
  have hcommitted := committed_step h.toPairsInvariant hstep
  obtain ⟨hm, -⟩ := hstep
  rename_i t a m
  intro u
  by_cases hu : u = t
  · subst hu
    simp only [Function.update_self]
    intro current old new newRefresh hs
    have hmoves := Refresher.moves_of_move hm
    generalize hst : (st.clients u).state = state at hmoves
    cases hmoves with
    | deleted hpresent =>
      cases hs
      refine (Refresher.present_view hst ?_).mp hpresent
      exact h.apart u u _ (by rw [Refresher.created, hst]; rfl) _ (by rw [Refresher.loaded, hst]; rfl)
    | _ => cases hs
  · simp only [Function.update_of_ne hu]
    intro current old new newRefresh hs
    have hheld := h.held u current old new newRefresh hs
    rcases hcommitted with ⟨heq, -⟩ | ⟨_, old', new', newRefresh', deleted', -, hs', hc⟩
    · exact (congrArg (Refresher.Present old.id) heq).mpr hheld
    · refine hc.present ?_ hheld
      rintro rfl hid
      refine h.exclusive t u (Ne.symm hu) (Refresher.deleteAccess old'.id) ?_
        (Refresher.deleteAccess old.id) ?_ _ rfl (congrArg TokenRow.accessToken hid.symm)
      · show _ ∈ Refresher.writes _
        rw [Refresher.writes, hs']
        simp
      · show _ ∈ Refresher.writes _
        rw [Refresher.writes, hs]
        simp

theorem OwnersInvariant.step {e : τ × RefreshStep} (h : OwnersInvariant app st)
    (hids : FreshIds st e) (hstep : ReadCommitted.Step (Refresher.client app) st e st') :
    OwnersInvariant app st' := by
  refine ⟨h.toPairsInvariant.step hstep, fun u => ?_, h.owners_step hstep, h.apart_step hids hstep,
    h.held_step hstep⟩
  obtain ⟨hm, -⟩ := hstep
  rename_i t a m
  by_cases hu : u = t
  · subst hu
    simp only [Function.update_self]
    exact Refresher.keepsOwner_next (h.keepsOwner u) hm
  · simp only [Function.update_of_ne hu]
    exact h.keepsOwner u

/-- A commit whose destroy was in time puts the new pair in the place of the old one. -/
theorem Refresher.Committed.pairReplaced {s s' : Store} {old new b : AccessTokenModel}
    {newRefresh : RefreshTokenModel} (h : Committed s old.id new newRefresh true s')
    (hb : b ∈ s.accessTokens) (hid : b.id = old.id) (howner : new.owner = b.owner) :
    PairReplaced s b new newRefresh s' := by
  cases h with
  | @inTime m hadd =>
    have hne : new.id ≠ old.id := fun heq => hadd.accessToken b hb (hid.trans heq.symm)
    refine ⟨hadd.toNewPair, hb, congrArg Prod.fst howner, congrArg Prod.snd howner,
      fun x => ?_, fun x => ?_⟩
    · rw [Store.mem_deleteAccessToken, hadd.accessTokens]
      constructor
      · rintro ⟨rfl | hx, hxid⟩
        · exact .inl rfl
        · exact .inr ⟨hx, fun heq => hxid (heq ▸ hid)⟩
      · rintro (rfl | ⟨hx, hxb⟩)
        · exact ⟨.inl rfl, hne⟩
        · exact ⟨.inr hx, fun heq => hxb (Table.eq_of_key_eq hx hb (heq.trans hid.symm))⟩
    · rw [Store.mem_deleteAccessToken_refreshTokens, hadd.refreshTokens, hid]
      constructor
      · rintro ⟨rfl | hx, hxid⟩
        · exact .inl rfl
        · exact .inr ⟨hx, hxid⟩
      · rintro (rfl | ⟨hx, hxid⟩)
        · exact ⟨.inl rfl, hadd.references ▸ hne⟩
        · exact ⟨.inr hx, hxid⟩

/-- The step lemma: a commit that came too late adds a login, and no other step changes them. -/
theorem OwnersInvariant.logins_step {e : τ × RefreshStep} (h : OwnersInvariant app st)
    (hstep : ReadCommitted.Step (Refresher.client app) st e st') :
    st'.committed.logins = lateLogin st e + st.committed.logins := by
  rcases committed_step h.toPairsInvariant hstep with
    ⟨heq, hlate⟩ | ⟨current, old, new, newRefresh, deleted, he, hs, hcommitted⟩
  · rw [heq, hlate, zero_add]
  · obtain ⟨t, a⟩ := e
    have hlate : lateLogin st (t, a) = if deleted then 0 else {new.owner} := by
      unfold lateLogin
      rw [he, hs]
      cases deleted <;> rfl
    rw [hlate]
    cases deleted with
    | false =>
      cases hcommitted with
      | late hadd => exact hadd.logins
    | true =>
      obtain ⟨b, hb, hid⟩ := h.held t current old new newRefresh hs
      have hnew : new.owner = old.owner := by
        have hkeeps := h.keepsOwner t
        unfold Refresher.KeepsOwner at hkeeps
        rwa [hs] at hkeeps
      have hbo : b.owner = old.owner :=
        h.owners t old (by rw [Refresher.loaded, hs]; rfl) b hb hid
      exact (hcommitted.pairReplaced hb hid (hnew.trans hbo.symm)).logins.trans (zero_add _).symm

/-- **Main theorem**: whatever requests do to however many refresh tokens at once, the logins of
    the committed tables grow by one for every commit whose destroy came too late, and only so.
    None is lost. -/
theorem interleaved_logins {es : List (τ × RefreshStep)} (hpaired : Paired st.committed)
    (hreceived : ∀ t, (st.clients t).state = .received)
    (hrun : Run (ReadCommitted.Step (Refresher.client app)) st es st')
    (hids : Along (ReadCommitted.Step (Refresher.client app)) FreshIds st es) :
    ∃ late, LateRun app st es late st' ∧ st'.committed.logins = late + st.committed.logins := by
  have hinit : OwnersInvariant app st := by
    refine ⟨.of_received hpaired hreceived, fun t => ?_, fun t old hold => ?_,
      fun t u new hnew => ?_, fun t current old new newRefresh hs => ?_⟩
    · unfold Refresher.KeepsOwner
      rw [hreceived t]
      trivial
    · rw [Refresher.loaded, hreceived t] at hold
      cases hold
    · rw [Refresher.created, hreceived t] at hnew
      cases hnew
    · rw [hreceived t] at hs
      cases hs
  clear hpaired hreceived
  induction hrun with
  | nil => exact ⟨0, .nil _, (zero_add _).symm⟩
  | @cons st m st' e es hstep hrest ih =>
    obtain ⟨late, hlate, hlogins⟩ := ih (hids.tail hstep) (hinit.step hids.head hstep)
    refine ⟨lateLogin st e + late, .cons hstep hlate, ?_⟩
    rw [hlogins, hinit.logins_step hstep, add_left_comm, add_assoc]

end Owned

theorem FreshIds.of_notMem {τ : Type} {t : τ} {as : List RefreshStep}
    (h : .insertAccessToken ∉ as) {step : State Store τ Refresher → τ × RefreshStep →
      State Store τ Refresher → Prop} {st : State Store τ Refresher} :
    Along step FreshIds st (as.map (Prod.mk t)) := by
  refine .of_forall fun e he m hinsert => ?_
  obtain ⟨a, ha, rfl⟩ := List.mem_map.mp he
  exact absurd (hinsert ▸ ha) h

/-- Two requests rotate one refresh token. The commit of the second adds a login. -/
theorem interleaved_logins_sample : ∃ es st' late,
    Run (ReadCommitted.Step (Refresher.client Sample.app))
      ⟨Sample.tokenStore, Sample.refreshes⟩ es st' ∧
    (∀ t ∈ [(0 : Fin 2), 1], ∃ new newRefresh,
      RotatedInto Sample.refreshToken (st'.clients t) new newRefresh) ∧
    LateRun Sample.app ⟨Sample.tokenStore, Sample.refreshes⟩ es late st' ∧
      st'.committed.logins = late + Sample.tokenStore.logins := by
  obtain ⟨payload, authenticated, hg⟩ := Sample.refresh_granted 0
  obtain ⟨payload', authenticated', hg'⟩ := Sample.refresh_granted 1
  obtain ⟨hguard, old, client, user, hload, hc, hu⟩ := hg.lookUp
  obtain ⟨⟨ho, -⟩, -⟩ := Refresher.loadFor_eq_ok.mp hload
  have hquiet : (Refresher.client Sample.app).Quiet Sample.refreshes := fun _ => rfl
  obtain ⟨calls₁, hrun₁, hquiet₁, ht₁, hothers₁⟩ := Client.run_alone hquiet
    (rfl : Sample.refreshes 0 = _) (Refresher.lookUp_alone hguard hload) rfl
  obtain ⟨calls₂, hrun₂, hquiet₂, ht₂, hothers₂⟩ := Client.run_alone hquiet₁
    (hothers₁ 1 (by decide)) (Refresher.lookUp_alone hg'.lookUp.1 hload) rfl
  have hzero := (hothers₂ 0 (by decide)).trans ht₁
  obtain ⟨m, calls₃, st', hrun₃, ht₃, hothers₃, hrun₄, hboth⟩ := rotate_both (by decide) hquiet₂
    hzero ht₂ ho hc hu (Sample.fresh 0) (Sample.fresh 1) (by decide) (by decide)
  have hrun := Run.append_iff.mpr ⟨_, hrun₁, Run.append_iff.mpr ⟨_, hrun₂, Run.append_iff.mpr
    ⟨_, hrun₃, hrun₄⟩⟩⟩
  have hlook : RefreshStep.insertAccessToken ∉ Refresher.lookUp := by simp [Refresher.lookUp]
  have hrest : RefreshStep.insertAccessToken ∉ [RefreshStep.insertRefreshToken, .destroy, .commit] := by
    simp
  have hids : Along (ReadCommitted.Step (Refresher.client Sample.app)) FreshIds
      ⟨Sample.tokenStore, Sample.refreshes⟩ (Refresher.lookUp.map (Prod.mk (0 : Fin 2)) ++
        (Refresher.lookUp.map (Prod.mk 1) ++
          ((Refresher.insertPair ++ Refresher.finish).map (Prod.mk 0) ++
            (Refresher.insertPair ++ Refresher.finish).map (Prod.mk 1)))) := by
    refine Along.append_of_run ReadCommitted.Step.unique hrun₁ (FreshIds.of_notMem hlook) ?_
    refine Along.append_of_run ReadCommitted.Step.unique hrun₂ (FreshIds.of_notMem hlook) ?_
    refine Along.append_of_run ReadCommitted.Step.unique hrun₃
      (.cons (fun _ u old' hold => ?_) fun m' _ => FreshIds.of_notMem hrest)
      (.cons (fun _ u old' hold => ?_) fun m' _ => FreshIds.of_notMem hrest)
    · -- both requests have loaded the old access token
      have hloaded : (calls₂ u).loaded = some old := by
        rcases (by decide : ∀ u : Fin 2, u = 0 ∨ u = 1) u with rfl | rfl
        · rw [hzero]
          rfl
        · rw [ht₂]
          rfl
      cases hloaded.symm.trans hold
      show hex (calls₂ 0).env.accessTokenBytes.toList ≠ _
      rw [hzero]
      exact ((Sample.fresh 0).accessToken old ho).symm
    · -- the first has responded
      have hone := (hothers₃ 1 (by decide)).trans ht₂
      have hloaded : (calls₃ u).loaded = some old := by
        rcases (by decide : ∀ u : Fin 2, u = 0 ∨ u = 1) u with rfl | rfl
        · have hnone : (calls₃ 0).loaded = none := by
            rw [ht₃]
            rfl
          cases hnone.symm.trans hold
        · rw [hone]
          rfl
      cases hloaded.symm.trans hold
      show hex (calls₃ 1).env.accessTokenBytes.toList ≠ _
      rw [hone]
      exact ((Sample.fresh 1).accessToken old ho).symm
  obtain ⟨late, hlate, hlogins⟩ :=
    interleaved_logins Sample.tokenStore_paired (fun _ => rfl) hrun hids
  refine ⟨_, _, late, hrun, fun t ht => ?_, hlate, hlogins⟩
  obtain ⟨new, newRefresh, hrotated, -⟩ := hboth t ht
  exact ⟨new, newRefresh, hrotated⟩

end NestTemplate
