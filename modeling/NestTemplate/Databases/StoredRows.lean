import Mathlib.Data.Set.List
import NestTemplate.Databases.OauthTables

/-!
# The rows that the database accepts

The columns hold more than the models of the OAuth code: a grant type is any
text, an id of a user may be negative, a date may be any time.

* `exists_user` ... `exists_challenge`: a row that the schema accepts and the code
  can read is the row of a model.
* `accepts_readable_iff`: such rows are the rows of a `Store`.
* `write_possible_iff`: what the application can leave in the database once all
  migrations are applied.
-/

namespace NestTemplate.Databases

open Common Common.Relational

/-- The code can read the rows back. -/
structure Readable (c : Content Value) : Prop where
  user_id : ∀ r ∈ c "users", ∀ n : ℤ, r "id" = some (.bigint n) → 0 ≤ n
  grant_type : ∀ r ∈ c "oauth_clients", ∃ g : GrantTypes, r "grant_type" = some (.text g.text)
  /-- Tokens expire at a whole millisecond from 1970 on. -/
  expires_at : ∀ t ∈ ["oauth_access_tokens", "oauth_refresh_tokens"], ∀ r ∈ c t, ∀ us : ℤ,
    r "expires_at" = some (.date us) → ∃ ms : ℕ, us = 1000 * ms

/-! ## Values of a type -/

theorem exists_bigint {v : Value} (h : DataType.BIGINT.holds v = true) : ∃ n, v = .bigint n := by
  cases v <;> first | exact ⟨_, rfl⟩ | cases h

theorem exists_string {n : ℕ} {v : Value} (h : (DataType.STRING n).holds v = true) :
    ∃ s, v = .text s := by
  cases v <;> first | exact ⟨_, rfl⟩ | cases h

theorem exists_text {v : Value} (h : DataType.TEXT.holds v = true) : ∃ s, v = .text s := by
  cases v <;> first | exact ⟨_, rfl⟩ | cases h

theorem exists_uuid {v : Value} (h : DataType.UUID.holds v = true) : ∃ u, v = .uuid u := by
  cases v <;> first | exact ⟨_, rfl⟩ | cases h

theorem exists_boolean {v : Value} (h : DataType.BOOLEAN.holds v = true) : ∃ b, v = .boolean b := by
  cases v <;> first | exact ⟨_, rfl⟩ | cases h

theorem exists_date {v : Value} (h : DataType.DATE.holds v = true) : ∃ us, v = .date us := by
  cases v <;> first | exact ⟨_, rfl⟩ | cases h

/-! ## Rows as models -/

def dateOf : Option Value → ℤ
  | some (.date us) => us
  | _ => 0

/-- `created_at` and `updated_at` of the row with an id. -/
def timesOf (c : Content Value) (table : String) (id : Value) : ℤ × ℤ :=
  ((c table).find? fun r => r "id" = some id).elim (0, 0) fun r =>
    (dateOf (r "created_at"), dateOf (r "updated_at"))

theorem schema_times : ∀ e ∈ schema, ∀ f ∈ ["created_at", "updated_at"], ∃ c ∈ e.2.columns,
    c.1 = f ∧ c.2.type = .DATE ∧ c.2.allowNull = false := by
  rw [schema_eq]
  decide

section Accepted

variable {c : Content Value} (h : Accepts DataType.holds schema c) {t : String}
  {d : TableDef DataType DefaultValue} (hd : (t, d) ∈ schema) {r : Row Value} (hr : r ∈ c t)

include h hd hr

theorem exists_value {f : String} {col : Column DataType DefaultValue} (hcol : (f, col) ∈ d.columns)
    (hnull : col.allowNull = false) : ∃ v, r f = some v ∧ col.type.holds v = true := by
  obtain ⟨v, hv⟩ := Option.ne_none_iff_exists'.mp (h.notNull t d hd f col hcol hnull r hr)
  exact ⟨v, hv, h.typed t d hd f col hcol r hr v hv⟩

/-- A row is found by its id. -/
theorem timesOf_eq {id : Value} (hid : r "id" = some id) :
    r "created_at" = some (.date (timesOf c t id).1) ∧
      r "updated_at" = some (.date (timesOf c t id).2) := by
  have hfind : (c t).find? (fun r => r "id" = some id) = some r := by
    cases hfind : (c t).find? fun r => r "id" = some id with
    | none => exact absurd hid (by simpa using List.find?_eq_none.mp hfind r hr)
    | some r' =>
      have hid' := of_decide_eq_true
        (List.find?_some (p := fun r : Row Value => r "id" = some id) hfind)
      obtain ⟨⟨f, col⟩, hcol, rfl, hkeyed⟩ := schema_ids _ hd
      have hunique := h.unique t d hd _ col hcol hkeyed
      rw [eq_of_nodup_filterMap hunique (List.mem_of_find?_eq_some hfind) hr hid' hid]
  have hdate : ∀ f ∈ ["created_at", "updated_at"], r f = some (.date (dateOf (r f))) := by
    intro f hf
    obtain ⟨⟨f, col⟩, hcol, rfl, htype, hnull⟩ := schema_times _ hd f hf
    obtain ⟨v, hv, hholds⟩ := exists_value h hd hr hcol hnull
    rw [show col.type = .DATE from htype] at hholds
    obtain ⟨us, rfl⟩ := exists_date hholds
    rw [hv]
    rfl
  unfold timesOf
  rw [hfind]
  exact ⟨hdate _ (.head _), hdate _ (.tail _ (.head _))⟩

/-- A row has no values but those in the columns of its table. -/
theorem cells_eq_row {cs : List (String × Option Value)}
    (hcs : cs = d.columns.map fun col => (col.1, r col.1)) : cells cs = r := by
  funext f
  rw [hcs, cells_map]
  split
  · rfl
  · rename_i hf
    exact (h.columns t d hd r hr f hf).symm

end Accepted

section Models

variable {c : Content Value} (h : Accepts DataType.holds schema c) (hread : Readable c) {r : Row Value}

include h hread

theorem exists_user (hr : r ∈ c "users") : ∃ u, cells (userCells (timesOf c) u) = r := by
  obtain ⟨_, hid, hholds⟩ := exists_value h usersTable_mem hr (.head _) rfl
  obtain ⟨n, rfl⟩ := exists_bigint hholds
  obtain ⟨_, hemail, hholds⟩ := exists_value h usersTable_mem hr (.tail _ (.head _)) rfl
  obtain ⟨email, rfl⟩ := exists_string hholds
  obtain ⟨password, hpassword⟩ : ∃ p : Option String, r "password" = p.map .text := by
    cases hp : r "password" with
    | none => exact ⟨none, rfl⟩
    | some v =>
      obtain ⟨s, rfl⟩ := exists_string
        (h.typed _ _ usersTable_mem _ _ (.tail _ (.tail _ (.head _))) r hr v hp)
      exact ⟨some s, rfl⟩
  obtain ⟨hcreated, hupdated⟩ := timesOf_eq h usersTable_mem hr hid
  obtain ⟨id, rfl⟩ := Int.eq_ofNat_of_zero_le (hread.user_id r hr n hid)
  refine ⟨⟨id, email, password⟩, cells_eq_row h usersTable_mem hr ?_⟩
  simp [userCells, timeCells, usersTable, usersColumns, timestamps, idValue, hid, hemail, hpassword,
    hcreated, hupdated]

omit hread in
theorem exists_client (hgrant : ∃ g : GrantTypes, r "grant_type" = some (.text g.text))
    (hr : r ∈ c "oauth_clients") : ∃ x, cells (clientCells (timesOf c) x) = r := by
  obtain ⟨_, hid, hholds⟩ := exists_value h oauthClientsTable_mem hr (.head _) rfl
  obtain ⟨id, rfl⟩ := exists_uuid hholds
  obtain ⟨_, hname, hholds⟩ := exists_value h oauthClientsTable_mem hr (.tail _ (.head _)) rfl
  obtain ⟨name, rfl⟩ := exists_string hholds
  obtain ⟨_, hsecret, hholds⟩ :=
    exists_value h oauthClientsTable_mem hr (.tail _ (.tail _ (.head _))) rfl
  obtain ⟨secret, rfl⟩ := exists_string hholds
  obtain ⟨_, hrevoked, hholds⟩ :=
    exists_value h oauthClientsTable_mem hr (.tail _ (.tail _ (.tail _ (.head _)))) rfl
  obtain ⟨is_revoked, rfl⟩ := exists_boolean hholds
  obtain ⟨g, hgrant⟩ := hgrant
  obtain ⟨hcreated, hupdated⟩ := timesOf_eq h oauthClientsTable_mem hr hid
  refine ⟨⟨id, name, secret, is_revoked, g⟩, cells_eq_row h oauthClientsTable_mem hr ?_⟩
  simp [clientCells, timeCells, oauthClientsTable, oauthClientsColumns, timestamps, hid, hname,
    hsecret, hrevoked, hgrant, hcreated, hupdated]

/-- A column that refers to the id of a user. -/
theorem exists_userId {t f : String} {d : TableDef DataType DefaultValue} {name : String}
    (hd : (t, d) ∈ schema) (hfk : cascading name f "users" ∈ d.foreignKeys) (hr : r ∈ c t)
    {n : ℤ} (hn : r f = some (.bigint n)) : ∃ id : ℕ, n = id := by
  obtain ⟨user, huser, hid⟩ := h.foreignKeys _ _ hd _ hfk r hr _ hn
  exact Int.eq_ofNat_of_zero_le (hread.user_id user huser n hid)

/-- `expires_at` of a token. -/
theorem exists_expiresAt {t : String} {d : TableDef DataType DefaultValue}
    (ht : t ∈ ["oauth_access_tokens", "oauth_refresh_tokens"]) (hd : (t, d) ∈ schema)
    {col : Column DataType DefaultValue} (hcol : ("expires_at", col) ∈ d.columns)
    (htype : col.type = .DATE) (hr : r ∈ c t) :
    ∃ e : Option ℕ, r "expires_at" = e.map dateValue := by
  cases he : r "expires_at" with
  | none => exact ⟨none, rfl⟩
  | some v =>
    have hholds := h.typed _ _ hd _ _ hcol r hr v he
    rw [htype] at hholds
    obtain ⟨us, rfl⟩ := exists_date hholds
    obtain ⟨ms, rfl⟩ := hread.expires_at t ht r hr us he
    exact ⟨some ms, rfl⟩

theorem exists_accessToken (hr : r ∈ c "oauth_access_tokens") :
    ∃ x, cells (accessTokenCells (timesOf c) x) = r := by
  obtain ⟨_, hid, hholds⟩ := exists_value h oauthAccessTokensTable_mem hr (.head _) rfl
  obtain ⟨id, rfl⟩ := exists_string hholds
  obtain ⟨expires_at, hexpires⟩ := exists_expiresAt h hread (by simp) oauthAccessTokensTable_mem
    (.tail _ (.head _)) rfl hr
  obtain ⟨_, hclient, hholds⟩ :=
    exists_value h oauthAccessTokensTable_mem hr (.tail _ (.tail _ (.head _))) rfl
  obtain ⟨client_id, rfl⟩ := exists_uuid hholds
  obtain ⟨user_id, huser⟩ : ∃ i : Option ℕ, r "user_id" = i.map idValue := by
    cases hi : r "user_id" with
    | none => exact ⟨none, rfl⟩
    | some v =>
      obtain ⟨n, rfl⟩ := exists_bigint (h.typed _ _ oauthAccessTokensTable_mem _ _
        (.tail _ (.tail _ (.tail _ (.head _)))) r hr v hi)
      obtain ⟨i, rfl⟩ := exists_userId h hread oauthAccessTokensTable_mem (.tail _ (.head _)) hr hi
      exact ⟨some i, rfl⟩
  obtain ⟨hcreated, hupdated⟩ := timesOf_eq h oauthAccessTokensTable_mem hr hid
  refine ⟨⟨id, client_id, user_id, expires_at⟩, cells_eq_row h oauthAccessTokensTable_mem hr ?_⟩
  simp [accessTokenCells, timeCells, oauthAccessTokensTable, oauthAccessTokensColumns, timestamps,
    hid, hexpires, hclient, huser, hcreated, hupdated]

theorem exists_refreshToken (hr : r ∈ c "oauth_refresh_tokens") :
    ∃ x, cells (refreshTokenCells (timesOf c) x) = r := by
  obtain ⟨_, hid, hholds⟩ := exists_value h oauthRefreshTokensTable_mem hr (.head _) rfl
  obtain ⟨id, rfl⟩ := exists_string hholds
  obtain ⟨expires_at, hexpires⟩ := exists_expiresAt h hread (by simp) oauthRefreshTokensTable_mem
    (.tail _ (.head _)) rfl hr
  obtain ⟨_, htoken, hholds⟩ :=
    exists_value h oauthRefreshTokensTable_mem hr (.tail _ (.tail _ (.head _))) rfl
  obtain ⟨access_token_id, rfl⟩ := exists_string hholds
  obtain ⟨hcreated, hupdated⟩ := timesOf_eq h oauthRefreshTokensTable_mem hr hid
  refine ⟨⟨id, access_token_id, expires_at⟩, cells_eq_row h oauthRefreshTokensTable_mem hr ?_⟩
  simp [refreshTokenCells, timeCells, oauthRefreshTokensTable, oauthRefreshTokensColumns, timestamps,
    hid, hexpires, htoken, hcreated, hupdated]

theorem exists_challenge (hr : r ∈ c "oauth_authorization_challenges") :
    ∃ x, cells (challengeCells (timesOf c) x) = r := by
  obtain ⟨_, hid, hholds⟩ := exists_value h oauthChallengesTable_mem hr (.head _) rfl
  obtain ⟨id, rfl⟩ := exists_uuid hholds
  obtain ⟨_, huser, hholds⟩ := exists_value h oauthChallengesTable_mem hr (.tail _ (.head _)) rfl
  obtain ⟨n, rfl⟩ := exists_bigint hholds
  obtain ⟨user_id, rfl⟩ := exists_userId h hread oauthChallengesTable_mem (.head _) hr huser
  obtain ⟨_, hclient, hholds⟩ :=
    exists_value h oauthChallengesTable_mem hr (.tail _ (.tail _ (.head _))) rfl
  obtain ⟨client_id, rfl⟩ := exists_uuid hholds
  obtain ⟨_, hchallenge, hholds⟩ :=
    exists_value h oauthChallengesTable_mem hr (.tail _ (.tail _ (.tail _ (.head _)))) rfl
  obtain ⟨challenge, rfl⟩ := exists_text hholds
  obtain ⟨_, halgorithm, hholds⟩ :=
    exists_value h oauthChallengesTable_mem hr (.tail _ (.tail _ (.tail _ (.tail _ (.head _))))) rfl
  obtain ⟨algorithm, rfl⟩ := exists_string hholds
  obtain ⟨hcreated, hupdated⟩ := timesOf_eq h oauthChallengesTable_mem hr hid
  refine ⟨⟨id, user_id, client_id, challenge, algorithm⟩,
    cells_eq_row h oauthChallengesTable_mem hr ?_⟩
  simp [challengeCells, timeCells, oauthChallengesTable, oauthChallengesColumns, timestamps, idValue,
    hid, huser, hclient, hchallenge, halgorithm, hcreated, hupdated]

/-- Rows that the schema accepts and the code can read are the rows of a store. -/
theorem exists_storeContent : ∃ times st, storeContent times st = c := by
  have hlift : ∀ {ρ : Type} {f : ρ → List (String × Option Value)} {rows : List (Row Value)},
      (∀ r ∈ rows, ∃ x, cells (f x) = r) →
        ∃ l : List ρ, l.map (fun x => cells (f x)) = rows := by
    intro ρ f rows hrows
    have hmem : rows ∈ Set.range (List.map fun x => cells (f x)) := by
      rw [Set.range_list_map]
      exact hrows
    exact hmem
  obtain ⟨us, hus⟩ := hlift fun r hr => exists_user h hread (r := r) hr
  obtain ⟨cs, hcs⟩ := hlift fun r hr => exists_client h (hread.grant_type r hr) (r := r) hr
  obtain ⟨as, has⟩ := hlift fun r hr => exists_accessToken h hread (r := r) hr
  obtain ⟨rs, hrs⟩ := hlift fun r hr => exists_refreshToken h hread (r := r) hr
  obtain ⟨chs, hchs⟩ := hlift fun r hr => exists_challenge h hread (r := r) hr
  have hc : content (timesOf c) us cs as rs chs = c := by
    funext t
    by_cases ht : t ∈ schema.names
    · obtain ⟨d, hd⟩ := Schema.mem_names.mp ht
      rcases mem_schema.mp hd with ⟨rfl, -⟩ | ⟨rfl, -⟩ | ⟨rfl, -⟩ | ⟨rfl, -⟩ | ⟨rfl, -⟩
      · exact hus
      · exact hcs
      · exact has
      · exact hrs
      · exact hchs
    · rw [content_eq_nil _ _ _ _ _ _ ht]
      exact (h.rows t ht).symm
  obtain ⟨st, rfl, rfl, rfl, rfl, rfl⟩ := (admits_content_iff (timesOf c)).mp (hc ▸ h.toAdmits)
  exact ⟨timesOf c, st, hc⟩

end Models

theorem readable_storeContent (times : String → Value → ℤ × ℤ) (st : Store) :
    Readable (storeContent times st) where
  user_id r hr n hid := by
    obtain ⟨u, -, rfl⟩ := List.mem_map.mp hr
    obtain rfl : (u.id : ℤ) = n := Value.bigint.inj (Option.some.inj hid)
    exact Int.natCast_nonneg _
  grant_type r hr := by
    obtain ⟨x, -, rfl⟩ := List.mem_map.mp hr
    exact ⟨x.grant_type, rfl⟩
  expires_at t ht r hr us hus := by
    have hdate : ∀ e : Option ℕ, e.map dateValue = some (.date us) → ∃ ms : ℕ, us = 1000 * ms := by
      intro e he
      obtain ⟨ms, -, hms⟩ := Option.map_eq_some_iff.mp he
      exact ⟨ms, (Value.date.inj hms).symm⟩
    rcases List.mem_pair.mp ht with rfl | rfl
    · obtain ⟨x, -, rfl⟩ := List.mem_map.mp hr
      exact hdate x.expires_at hus
    · obtain ⟨x, -, rfl⟩ := List.mem_map.mp hr
      exact hdate x.expires_at hus

/-- The rows that the schema accepts and the code can read are those of the stores whose values fit
    the columns. -/
theorem accepts_readable_iff {c : Content Value} :
    Accepts DataType.holds schema c ∧ Readable c ↔
      ∃ (times : String → Value → ℤ × ℤ) (st : Store), RowsFit times st.users.rows st.clients.rows
        st.accessTokens.rows st.refreshTokens.rows st.challenges.rows ∧ storeContent times st = c := by
  constructor
  · rintro ⟨h, hread⟩
    obtain ⟨times, st, rfl⟩ := exists_storeContent h hread
    exact ⟨times, st, ((accepts_content_iff times).mp h).2, rfl⟩
  · rintro ⟨times, st, hfit, rfl⟩
    exact ⟨(accepts_content_iff times).mpr ⟨admits_storeContent times st, hfit⟩,
      readable_storeContent times st⟩

/-! ## What the application can leave -/

/-- Once all migrations are applied, the application can leave the rows that the schema accepts; those
    that the code can read are the rows of the stores whose values fit the columns. -/
theorem write_possible_iff {packages : Packages} (hp : packages.Documented) {es : List Event}
    {s : State} (h : Run (Step packages) fresh es s)
    (hun : ∀ e ∈ es, e.uninterrupted = true) (hfull : es.foldl count 0 = migrations.length)
    (rows : Content Value) :
    (Possible s (.write rows) ↔ Accepts DataType.holds schema rows) ∧
    (Possible s (.write rows) ∧ Readable rows ↔
      ∃ (times : String → Value → ℤ × ℤ) (st : Store), RowsFit times st.users.rows st.clients.rows
        st.accessTokens.rows st.refreshTokens.rows st.challenges.rows ∧
          storeContent times st = rows) := by
  obtain rfl := hp.eq
  have hat := (at_of_run h at_fresh sound_fresh hun).2
  rw [hfull] at hat
  have hcat : catalogAt migrations.length = some s.state.toCatalog :=
    hat.state.1.resolve_right fun h => absurd h.1 (by decide)
  have hschema : s.state.tables = schema := by
    rw [schema, hcat]
    rfl
  have hpossible : Possible s (.write rows) ↔ Accepts DataType.holds schema rows := by
    show Accepts DataType.holds s.state.tables rows ↔ _
    rw [hschema]
  rw [hpossible]
  exact ⟨Iff.rfl, accepts_readable_iff⟩

/-- A user, a client and a code. -/
theorem write_possible_iff_sample :
    let rows := storeContent Sample.epoch (NestTemplate.Sample.codeStore .PKCE)
    Possible (perform reference fresh (.run none)).1 (.write rows) ∧ Readable rows := by
  have h : Run (Step reference) fresh [.run none] (perform reference fresh (.run none)).1 :=
    .cons ⟨trivial, rfl⟩ (.nil _)
  refine (write_possible_iff reference_documented h (by decide) rfl _).2.mpr
    ⟨Sample.epoch, NestTemplate.Sample.codeStore .PKCE, ⟨?_, ?_, ?_, ?_, ?_⟩, rfl⟩
  all_goals decide

end NestTemplate.Databases
