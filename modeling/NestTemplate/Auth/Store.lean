import NestTemplate.Auth.Models
import NestTemplate.Common.Table
import NestTemplate.Http.Validation

/-!
# The OAuth tables

A `Store` is the content of the five tables of `databases/migrations`. Its
fields state the primary keys (`Table`), the unique e-mail and the foreign keys,
which PostgreSQL enforces after every statement, so that every operation below
has to keep them.

* `insertUser` ... `insertRefreshToken`: refuse a row that would break a
  constraint (`insertAccessToken_isOk` and its siblings say when).
* `updateClient`.
* `retain`: every delete, with its cascade (`ON DELETE CASCADE`).
-/

namespace NestTemplate

open Common

/-- The content of the database. -/
structure Store where
  users : Table UserModel.id
  clients : Table ClientModel.id
  challenges : Table AuthorizationChallengeModel.id
  accessTokens : Table AccessTokenModel.id
  refreshTokens : Table RefreshTokenModel.id
  /-- `email` is unique. -/
  user_email : ∀ u ∈ users, ∀ v ∈ users, u.email = v.email → u = v
  /-- `user_id_users_id_fk`. -/
  challenge_user : ∀ r ∈ challenges, ∃ u ∈ users, u.id = r.user_id
  /-- `client_id_oauth_clients_id_fk`. -/
  challenge_client : ∀ r ∈ challenges, ∃ c ∈ clients, c.id = r.client_id
  accessToken_client : ∀ a ∈ accessTokens, ∃ c ∈ clients, c.id = a.client_id
  accessToken_user : ∀ a ∈ accessTokens, ∀ i ∈ a.user_id, ∃ u ∈ users, u.id = i
  refreshToken_accessToken : ∀ r ∈ refreshTokens, ∃ a ∈ accessTokens, a.id = r.access_token_id

namespace Store

/-- The migrated database before any row is written. -/
def empty : Store where
  users := ∅
  clients := ∅
  challenges := ∅
  accessTokens := ∅
  refreshTokens := ∅
  user_email := by simp
  challenge_user := by simp
  challenge_client := by simp
  accessToken_client := by simp
  accessToken_user := by simp
  refreshToken_accessToken := by simp

/-- PostgreSQL has no text with a NUL character. -/
def isText (s : String) : Bool := '\x00' ∉ s.toList

/-! ### Inserts -/

def insertUser (st : Store) (u : UserModel) : Except Failure Store :=
  match h : st.users.insert? u with
  | none => .error .database
  | some users =>
    if he : ∀ v ∈ st.users, v.email ≠ u.email then
      .ok { st with
        users := users
        user_email := by
          intro v hv w hw e
          rw [Table.mem_insert? h] at hv hw
          rcases hv with rfl | hv <;> rcases hw with rfl | hw
          · rfl
          · exact absurd e.symm (he w hw)
          · exact absurd e (he v hv)
          · exact st.user_email v hv w hw e
        challenge_user := fun r hr =>
          let ⟨v, hv, e⟩ := st.challenge_user r hr
          ⟨v, (Table.mem_insert? h v).mpr (.inr hv), e⟩
        accessToken_user := fun a ha i hi =>
          let ⟨v, hv, e⟩ := st.accessToken_user a ha i hi
          ⟨v, (Table.mem_insert? h v).mpr (.inr hv), e⟩ }
    else .error .database

def insertClient (st : Store) (c : ClientModel) : Except Failure Store :=
  match h : st.clients.insert? c with
  | none => .error .database
  | some clients =>
    .ok { st with
      clients := clients
      challenge_client := fun r hr =>
        let ⟨d, hd, e⟩ := st.challenge_client r hr
        ⟨d, (Table.mem_insert? h d).mpr (.inr hd), e⟩
      accessToken_client := fun a ha =>
        let ⟨d, hd, e⟩ := st.accessToken_client a ha
        ⟨d, (Table.mem_insert? h d).mpr (.inr hd), e⟩ }

/-- The challenge is the only text of the five tables that a request chooses. -/
def insertChallenge (st : Store) (r : AuthorizationChallengeModel) : Except Failure Store :=
  match h : st.challenges.insert? r with
  | none => .error .database
  | some challenges =>
    if hfk : isText r.challenge ∧ (∃ u ∈ st.users, u.id = r.user_id) ∧
        ∃ c ∈ st.clients, c.id = r.client_id then
      .ok { st with
        challenges := challenges
        challenge_user := by
          intro r' hr'
          rcases (Table.mem_insert? h r').mp hr' with rfl | hr'
          · exact hfk.2.1
          · exact st.challenge_user r' hr'
        challenge_client := by
          intro r' hr'
          rcases (Table.mem_insert? h r').mp hr' with rfl | hr'
          · exact hfk.2.2
          · exact st.challenge_client r' hr' }
    else .error .database

def insertAccessToken (st : Store) (a : AccessTokenModel) : Except Failure Store :=
  match h : st.accessTokens.insert? a with
  | none => .error .database
  | some accessTokens =>
    if hfk : (∃ c ∈ st.clients, c.id = a.client_id) ∧
        ∀ i ∈ a.user_id, ∃ u ∈ st.users, u.id = i then
      .ok { st with
        accessTokens := accessTokens
        accessToken_client := by
          intro b hb
          rcases (Table.mem_insert? h b).mp hb with rfl | hb
          · exact hfk.1
          · exact st.accessToken_client b hb
        accessToken_user := by
          intro b hb
          rcases (Table.mem_insert? h b).mp hb with rfl | hb
          · exact hfk.2
          · exact st.accessToken_user b hb
        refreshToken_accessToken := fun r hr =>
          let ⟨b, hb, e⟩ := st.refreshToken_accessToken r hr
          ⟨b, (Table.mem_insert? h b).mpr (.inr hb), e⟩ }
    else .error .database

def insertRefreshToken (st : Store) (r : RefreshTokenModel) : Except Failure Store :=
  match h : st.refreshTokens.insert? r with
  | none => .error .database
  | some refreshTokens =>
    if hfk : ∃ a ∈ st.accessTokens, a.id = r.access_token_id then
      .ok { st with
        refreshTokens := refreshTokens
        refreshToken_accessToken := by
          intro r' hr'
          rcases (Table.mem_insert? h r').mp hr' with rfl | hr'
          · exact hfk
          · exact st.refreshToken_accessToken r' hr' }
    else .error .database

theorem insertUser_eq_ok {st st' : Store} {u : UserModel} (h : st.insertUser u = .ok st') :
    (∀ v, v ∈ st'.users ↔ v = u ∨ v ∈ st.users) ∧ st'.clients = st.clients ∧
      st'.challenges = st.challenges ∧ st'.accessTokens = st.accessTokens ∧
      st'.refreshTokens = st.refreshTokens := by
  unfold insertUser at h
  split at h
  · cases h
  · rename_i users hu
    split at h
    · cases h
      exact ⟨Table.mem_insert? hu, rfl, rfl, rfl, rfl⟩
    · cases h

theorem insertClient_eq_ok {st st' : Store} {c : ClientModel} (h : st.insertClient c = .ok st') :
    (∀ d, d ∈ st'.clients ↔ d = c ∨ d ∈ st.clients) ∧ st'.users = st.users ∧
      st'.challenges = st.challenges ∧ st'.accessTokens = st.accessTokens ∧
      st'.refreshTokens = st.refreshTokens := by
  unfold insertClient at h
  split at h
  · cases h
  · rename_i clients hc
    cases h
    exact ⟨Table.mem_insert? hc, rfl, rfl, rfl, rfl⟩

theorem insertClient_fresh {st st' : Store} {c : ClientModel} (h : st.insertClient c = .ok st') :
    ∀ d ∈ st.clients, d.id ≠ c.id := by
  unfold insertClient at h
  split at h
  · cases h
  · rename_i clients hc
    exact Table.insert?_fresh hc

theorem insertChallenge_eq_ok {st st' : Store} {r : AuthorizationChallengeModel}
    (h : st.insertChallenge r = .ok st') :
    (∀ x, x ∈ st'.challenges ↔ x = r ∨ x ∈ st.challenges) ∧ st'.users = st.users ∧
      st'.clients = st.clients ∧ st'.accessTokens = st.accessTokens ∧
      st'.refreshTokens = st.refreshTokens := by
  unfold insertChallenge at h
  split at h
  · cases h
  · rename_i challenges hc
    split at h
    · cases h
      exact ⟨Table.mem_insert? hc, rfl, rfl, rfl, rfl⟩
    · cases h

theorem insertAccessToken_eq_ok {st st' : Store} {a : AccessTokenModel}
    (h : st.insertAccessToken a = .ok st') :
    (∀ x, x ∈ st'.accessTokens ↔ x = a ∨ x ∈ st.accessTokens) ∧ st'.users = st.users ∧
      st'.clients = st.clients ∧ st'.challenges = st.challenges ∧
      st'.refreshTokens = st.refreshTokens := by
  unfold insertAccessToken at h
  split at h
  · cases h
  · rename_i accessTokens ha
    split at h
    · cases h
      exact ⟨Table.mem_insert? ha, rfl, rfl, rfl, rfl⟩
    · cases h

theorem insertRefreshToken_eq_ok {st st' : Store} {r : RefreshTokenModel}
    (h : st.insertRefreshToken r = .ok st') :
    (∀ x, x ∈ st'.refreshTokens ↔ x = r ∨ x ∈ st.refreshTokens) ∧ st'.users = st.users ∧
      st'.clients = st.clients ∧ st'.challenges = st.challenges ∧
      st'.accessTokens = st.accessTokens := by
  unfold insertRefreshToken at h
  split at h
  · cases h
  · rename_i refreshTokens hr
    split at h
    · cases h
      exact ⟨Table.mem_insert? hr, rfl, rfl, rfl, rfl⟩
    · cases h

/-- A row goes in iff its key is new and what it refers to is there. -/
theorem insertAccessToken_isOk {st : Store} {a : AccessTokenModel} :
    (∃ st', st.insertAccessToken a = .ok st') ↔
      (∀ b ∈ st.accessTokens, b.id ≠ a.id) ∧ (∃ c ∈ st.clients, c.id = a.client_id) ∧
        ∀ i ∈ a.user_id, ∃ u ∈ st.users, u.id = i := by
  unfold insertAccessToken
  rw [← Table.insert?_isSome (t := st.accessTokens)]
  split
  · rename_i h; simp [h]
  · rename_i h
    split
    · rename_i hfk; simpa [h] using hfk
    · rename_i hfk; simpa [h] using hfk

theorem insertRefreshToken_isOk {st : Store} {r : RefreshTokenModel} :
    (∃ st', st.insertRefreshToken r = .ok st') ↔
      (∀ x ∈ st.refreshTokens, x.id ≠ r.id) ∧ ∃ a ∈ st.accessTokens, a.id = r.access_token_id := by
  unfold insertRefreshToken
  rw [← Table.insert?_isSome (t := st.refreshTokens)]
  split
  · rename_i h; simp [h]
  · rename_i h
    split
    · rename_i hfk; simpa [h] using hfk
    · rename_i hfk; simpa [h] using hfk

theorem insertChallenge_isOk {st : Store} {r : AuthorizationChallengeModel} :
    (∃ st', st.insertChallenge r = .ok st') ↔
      (∀ x ∈ st.challenges, x.id ≠ r.id) ∧ isText r.challenge = true ∧
        (∃ u ∈ st.users, u.id = r.user_id) ∧ ∃ c ∈ st.clients, c.id = r.client_id := by
  unfold insertChallenge
  rw [← Table.insert?_isSome (t := st.challenges)]
  split
  · rename_i h; simp [h]
  · rename_i h
    split
    · rename_i hfk; simpa [h] using hfk
    · rename_i hfk; simpa [h] using hfk

/-- An access token and its refresh token. -/
def insertTokens (st : Store) (a : AccessTokenModel) (r : RefreshTokenModel) :
    Except Failure Store :=
  match st.insertAccessToken a with
  | .ok m => m.insertRefreshToken r
  | .error e => .error e

theorem insertTokens_eq_ok {st st' : Store} {a : AccessTokenModel} {r : RefreshTokenModel}
    (h : st.insertTokens a r = .ok st') :
    (∀ x, x ∈ st'.accessTokens ↔ x = a ∨ x ∈ st.accessTokens) ∧
      (∀ x, x ∈ st'.refreshTokens ↔ x = r ∨ x ∈ st.refreshTokens) ∧ st'.users = st.users ∧
        st'.clients = st.clients ∧ st'.challenges = st.challenges := by
  unfold insertTokens at h
  split at h
  · rename_i m hm
    obtain ⟨ha, hu, hc, hch, hr⟩ := insertAccessToken_eq_ok hm
    obtain ⟨hr', hu', hc', hch', ha'⟩ := insertRefreshToken_eq_ok h
    refine ⟨fun x => ?_, fun x => ?_, hu'.trans hu, hc'.trans hc, hch'.trans hch⟩
    · rw [ha', ha]
    · rw [hr', hr]
  · cases h

/-- A pair goes in iff both ids are new and the client and the user are there. -/
theorem insertTokens_isOk {st : Store} {a : AccessTokenModel} {r : RefreshTokenModel}
    (hr : r.access_token_id = a.id) :
    (∃ st', st.insertTokens a r = .ok st') ↔
      ((∀ b ∈ st.accessTokens, b.id ≠ a.id) ∧ (∃ c ∈ st.clients, c.id = a.client_id) ∧
        ∀ i ∈ a.user_id, ∃ u ∈ st.users, u.id = i) ∧ ∀ x ∈ st.refreshTokens, x.id ≠ r.id := by
  rw [← insertAccessToken_isOk]
  unfold insertTokens
  constructor
  · rintro ⟨st', h⟩
    split at h
    · rename_i m hm
      refine ⟨⟨m, hm⟩, ?_⟩
      rw [← (insertAccessToken_eq_ok hm).2.2.2.2]
      exact (insertRefreshToken_isOk.mp ⟨st', h⟩).1
    · cases h
  · rintro ⟨⟨m, hm⟩, hfresh⟩
    obtain ⟨ha, -, -, -, hrt⟩ := insertAccessToken_eq_ok hm
    rw [← hrt] at hfresh
    obtain ⟨st', h⟩ := insertRefreshToken_isOk.mpr ⟨hfresh, a, (ha a).mpr (.inl rfl), hr.symm⟩
    exact ⟨st', by rw [hm]; exact h⟩

/-! ### Updates -/

/-- `UPDATE oauth_clients ... WHERE id = id`. -/
def updateClient (st : Store) (id : Uuid) (f : ClientModel → ClientModel)
    (hf : ∀ c, (f c).id = c.id) : Store :=
  have keeps : ∀ c, (if c.id = id then f c else c).id = c.id := fun c => by split <;> simp [hf]
  { st with
    clients := st.clients.modify (fun c => if c.id = id then f c else c) keeps
    challenge_client := fun r hr =>
      let ⟨c, hc, e⟩ := st.challenge_client r hr
      ⟨_, Table.mem_modify.mpr ⟨c, hc, rfl⟩, (keeps c).trans e⟩
    accessToken_client := fun a ha =>
      let ⟨c, hc, e⟩ := st.accessToken_client a ha
      ⟨_, Table.mem_modify.mpr ⟨c, hc, rfl⟩, (keeps c).trans e⟩ }

theorem mem_updateClient {st : Store} {id : Uuid} {f : ClientModel → ClientModel}
    {hf : ∀ c, (f c).id = c.id} {d : ClientModel} :
    d ∈ (st.updateClient id f hf).clients ↔
      (∃ c ∈ st.clients, c.id = id ∧ d = f c) ∨ (d ∈ st.clients ∧ d.id ≠ id) := by
  simp only [updateClient, Table.mem_modify]
  constructor
  · rintro ⟨c, hc, rfl⟩
    by_cases h : c.id = id
    · exact .inl ⟨c, hc, h, by rw [if_pos h]⟩
    · exact .inr (by rw [if_neg h]; exact ⟨hc, h⟩)
  · rintro (⟨c, hc, h, rfl⟩ | ⟨hd, h⟩)
    · exact ⟨c, hc, by rw [if_pos h]⟩
    · exact ⟨d, hd, by rw [if_neg h]⟩

/-- `UPDATE users SET email, password WHERE id = id`. -/
def updateUser (st : Store) (id : ℕ) (email : String) (password : Option String) :
    Except Failure Store :=
  let f : UserModel → UserModel := fun u => if u.id = id then { u with email, password } else u
  have keeps : ∀ u, (f u).id = u.id := fun u => by dsimp only [f]; split <;> rfl
  if h : ∀ u ∈ st.users, ∀ v ∈ st.users, (f u).email = (f v).email → u = v then
    .ok { st with
      users := st.users.modify f keeps
      user_email := by
        intro u' hu' v' hv' e
        obtain ⟨u, hu, rfl⟩ := Table.mem_modify.mp hu'
        obtain ⟨v, hv, rfl⟩ := Table.mem_modify.mp hv'
        rw [h u hu v hv e]
      challenge_user := fun r hr =>
        let ⟨u, hu, e⟩ := st.challenge_user r hr
        ⟨_, Table.mem_modify.mpr ⟨u, hu, rfl⟩, (keeps u).trans e⟩
      accessToken_user := fun a ha i hi =>
        let ⟨u, hu, e⟩ := st.accessToken_user a ha i hi
        ⟨_, Table.mem_modify.mpr ⟨u, hu, rfl⟩, (keeps u).trans e⟩ }
  else .error .database

/-- An update of a user leaves the other tables alone. -/
theorem updateUser_eq_ok {st st' : Store} {id : ℕ} {email : String} {password : Option String}
    (h : st.updateUser id email password = .ok st') :
    st'.clients = st.clients ∧ st'.challenges = st.challenges ∧
      st'.accessTokens = st.accessTokens ∧ st'.refreshTokens = st.refreshTokens := by
  unfold updateUser at h
  dsimp only at h
  split at h
  · cases h
    exact ⟨rfl, rfl, rfl, rfl⟩
  · cases h

/-! ### Deletes -/

/-- Delete the rows that fail their predicate, and with them every row that refers to a deleted
    one (`ON DELETE CASCADE`). -/
def retain (st : Store) (users : UserModel → Bool) (clients : ClientModel → Bool)
    (challenges : AuthorizationChallengeModel → Bool) (accessTokens : AccessTokenModel → Bool) :
    Store :=
  let us := st.users.filter users
  let cs := st.clients.filter clients
  let rs := st.challenges.filter fun r => challenges r ∧ (∃ u ∈ us, u.id = r.user_id) ∧
    ∃ c ∈ cs, c.id = r.client_id
  let as := st.accessTokens.filter fun a => accessTokens a ∧
    (∃ c ∈ cs, c.id = a.client_id) ∧ ∀ i ∈ a.user_id, ∃ u ∈ us, u.id = i
  let ts := st.refreshTokens.filter fun t => ∃ a ∈ as, a.id = t.access_token_id
  { users := us
    clients := cs
    challenges := rs
    accessTokens := as
    refreshTokens := ts
    user_email := fun u hu v hv e =>
      st.user_email u (Table.mem_filter.mp hu).1 v (Table.mem_filter.mp hv).1 e
    challenge_user := fun _ hr => (of_decide_eq_true (Table.mem_filter.mp hr).2).2.1
    challenge_client := fun _ hr => (of_decide_eq_true (Table.mem_filter.mp hr).2).2.2
    accessToken_client := fun _ ha => (of_decide_eq_true (Table.mem_filter.mp ha).2).2.1
    accessToken_user := fun _ ha => (of_decide_eq_true (Table.mem_filter.mp ha).2).2.2
    refreshToken_accessToken := fun _ ht => of_decide_eq_true (Table.mem_filter.mp ht).2 }

def deleteUser (st : Store) (id : ℕ) : Store :=
  st.retain (·.id ≠ id) (fun _ => true) (fun _ => true) (fun _ => true)

def deleteClient (st : Store) (id : Uuid) : Store :=
  st.retain (fun _ => true) (·.id ≠ id) (fun _ => true) (fun _ => true)

def deleteChallenge (st : Store) (id : Uuid) : Store :=
  st.retain (fun _ => true) (fun _ => true) (·.id ≠ id) (fun _ => true)

def deleteAccessToken (st : Store) (id : String) : Store :=
  st.retain (fun _ => true) (fun _ => true) (fun _ => true) (·.id ≠ id)

section Retain

variable {st : Store} {pu : UserModel → Bool} {pc : ClientModel → Bool}
  {pr : AuthorizationChallengeModel → Bool} {pa : AccessTokenModel → Bool}

theorem mem_clients_retain {c : ClientModel} :
    c ∈ (st.retain pu pc pr pa).clients ↔ c ∈ st.clients ∧ pc c = true := Table.mem_filter

theorem mem_challenges_retain {r : AuthorizationChallengeModel} :
    r ∈ (st.retain pu pc pr pa).challenges ↔ r ∈ st.challenges ∧ pr r = true ∧
      (∃ u ∈ st.users, pu u = true ∧ u.id = r.user_id) ∧
        ∃ c ∈ st.clients, pc c = true ∧ c.id = r.client_id := by
  refine Table.mem_filter.trans (and_congr_right fun _ => ?_)
  rw [decide_eq_true_iff]
  simp only [Table.mem_filter, and_assoc]

theorem mem_accessTokens_retain {a : AccessTokenModel} :
    a ∈ (st.retain pu pc pr pa).accessTokens ↔ a ∈ st.accessTokens ∧ pa a = true ∧
      (∃ c ∈ st.clients, pc c = true ∧ c.id = a.client_id) ∧
        ∀ i ∈ a.user_id, ∃ u ∈ st.users, pu u = true ∧ u.id = i := by
  refine Table.mem_filter.trans (and_congr_right fun _ => ?_)
  rw [decide_eq_true_iff]
  simp only [Table.mem_filter, and_assoc]

theorem mem_refreshTokens_retain {t : RefreshTokenModel} :
    t ∈ (st.retain pu pc pr pa).refreshTokens ↔ t ∈ st.refreshTokens ∧
      ∃ a ∈ (st.retain pu pc pr pa).accessTokens, a.id = t.access_token_id := by
  refine Table.mem_filter.trans (and_congr_right fun _ => ?_)
  rw [decide_eq_true_iff]
  rfl

end Retain

@[simp] theorem deleteChallenge_users (st : Store) (id : Uuid) :
    (st.deleteChallenge id).users = st.users := Table.filter_eq_self fun _ _ => rfl

@[simp] theorem deleteChallenge_clients (st : Store) (id : Uuid) :
    (st.deleteChallenge id).clients = st.clients := Table.filter_eq_self fun _ _ => rfl

@[simp] theorem deleteAccessToken_users (st : Store) (id : String) :
    (st.deleteAccessToken id).users = st.users := Table.filter_eq_self fun _ _ => rfl

@[simp] theorem deleteAccessToken_clients (st : Store) (id : String) :
    (st.deleteAccessToken id).clients = st.clients := Table.filter_eq_self fun _ _ => rfl

/-- Nothing refers to a challenge. -/
theorem mem_deleteChallenge {st : Store} {id : Uuid} {r : AuthorizationChallengeModel} :
    r ∈ (st.deleteChallenge id).challenges ↔ r ∈ st.challenges ∧ r.id ≠ id := by
  rw [deleteChallenge, mem_challenges_retain]
  constructor
  · rintro ⟨hr, hid, -⟩
    exact ⟨hr, by simpa using hid⟩
  · rintro ⟨hr, hid⟩
    obtain ⟨u, hu, eu⟩ := st.challenge_user r hr
    obtain ⟨c, hc, ec⟩ := st.challenge_client r hr
    exact ⟨hr, by simpa using hid, ⟨u, hu, rfl, eu⟩, c, hc, rfl, ec⟩

@[simp] theorem deleteChallenge_accessTokens (st : Store) (id : Uuid) :
    (st.deleteChallenge id).accessTokens = st.accessTokens :=
  Table.filter_eq_self fun a ha => by
    obtain ⟨c, hc, ec⟩ := st.accessToken_client a ha
    refine decide_eq_true ⟨rfl, ⟨c, Table.mem_filter.mpr ⟨hc, rfl⟩, ec⟩, fun i hi => ?_⟩
    obtain ⟨u, hu, eu⟩ := st.accessToken_user a ha i hi
    exact ⟨u, Table.mem_filter.mpr ⟨hu, rfl⟩, eu⟩

@[simp] theorem deleteChallenge_refreshTokens (st : Store) (id : Uuid) :
    (st.deleteChallenge id).refreshTokens = st.refreshTokens :=
  Table.filter_eq_self fun t ht => by
    obtain ⟨a, ha, e⟩ := st.refreshToken_accessToken t ht
    have ha' : a ∈ (st.deleteChallenge id).accessTokens := by rwa [deleteChallenge_accessTokens]
    exact decide_eq_true ⟨a, ha', e⟩

@[simp] theorem deleteAccessToken_challenges (st : Store) (id : String) :
    (st.deleteAccessToken id).challenges = st.challenges :=
  Table.filter_eq_self fun r hr => by
    obtain ⟨u, hu, eu⟩ := st.challenge_user r hr
    obtain ⟨c, hc, ec⟩ := st.challenge_client r hr
    exact decide_eq_true ⟨rfl, ⟨u, Table.mem_filter.mpr ⟨hu, rfl⟩, eu⟩,
      c, Table.mem_filter.mpr ⟨hc, rfl⟩, ec⟩

theorem mem_deleteAccessToken {st : Store} {id : String} {a : AccessTokenModel} :
    a ∈ (st.deleteAccessToken id).accessTokens ↔ a ∈ st.accessTokens ∧ a.id ≠ id := by
  rw [deleteAccessToken, mem_accessTokens_retain]
  constructor
  · rintro ⟨ha, hid, -⟩
    exact ⟨ha, by simpa using hid⟩
  · rintro ⟨ha, hid⟩
    obtain ⟨c, hc, ec⟩ := st.accessToken_client a ha
    refine ⟨ha, by simpa using hid, ⟨c, hc, rfl, ec⟩, fun i hi => ?_⟩
    obtain ⟨u, hu, eu⟩ := st.accessToken_user a ha i hi
    exact ⟨u, hu, rfl, eu⟩

/-- The refresh tokens of a deleted access token go with it. -/
theorem mem_deleteAccessToken_refreshTokens {st : Store} {id : String} {t : RefreshTokenModel} :
    t ∈ (st.deleteAccessToken id).refreshTokens ↔
      t ∈ st.refreshTokens ∧ t.access_token_id ≠ id := by
  rw [deleteAccessToken, mem_refreshTokens_retain]
  refine and_congr_right fun ht => ?_
  constructor
  · rintro ⟨a, ha, e⟩
    rw [← e]
    exact (mem_deleteAccessToken.mp ha).2
  · intro hid
    obtain ⟨a, ha, e⟩ := st.refreshToken_accessToken t ht
    exact ⟨a, mem_deleteAccessToken.mpr ⟨ha, e ▸ hid⟩, e⟩

end Store

end NestTemplate
