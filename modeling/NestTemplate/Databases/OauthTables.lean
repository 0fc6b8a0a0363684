import NestTemplate.Auth.Runs
import NestTemplate.Databases.MigrationRuns

/-!
# The OAuth tables and the migrated schema

A `Store` states the constraints between the rows of the five tables as fields;
here they are the ones that the migrations make PostgreSQL enforce.

* `admits_content_iff`: rows satisfy the constraints of the migrated schema
  exactly if they are the rows of a `Store`.
* `accepts_content_iff`: the schema accepts them if they also fit the columns.
  `Store` leaves the types to PostgreSQL; the ids and secrets that requests make
  fit (`isVarchar_hex`).
* `inserts_admitted`: the schema accepts the rows with a new one exactly if the
  `Store` takes it and it fits.
* `deletes_cascade`: a delete leaves what `ON DELETE CASCADE` leaves.
-/

namespace NestTemplate.Databases

open Common Common.Relational

/-- The tables after all migrations. -/
def schema : Schema DataType DefaultValue :=
  ((catalogAt migrations.length).map (·.tables)).getD []

/-- A foreign key to a column `id`, as every migration declares it. -/
def cascading (name field table : String) : ForeignKey where
  name := name
  field := field
  table := table
  key := "id"
  onDelete := .cascade
  onUpdate := .noAction

def usersTable : TableDef DataType DefaultValue where
  columns := usersColumns

def oauthClientsTable : TableDef DataType DefaultValue where
  columns := oauthClientsColumns

def oauthAccessTokensTable : TableDef DataType DefaultValue where
  columns := oauthAccessTokensColumns
  foreignKeys :=
    [cascading "oauth_access_tokens_client_id_oauth_clients_fk" "client_id" "oauth_clients",
      cascading "oauth_access_tokens_user_id_users_fk" "user_id" "users"]
  indexes :=
    [("oauth_access_tokens_client_id", ["client_id"]), ("oauth_access_tokens_user_id", ["user_id"])]

def oauthRefreshTokensTable : TableDef DataType DefaultValue where
  columns := oauthRefreshTokensColumns
  foreignKeys :=
    [cascading "oauth_refresh_tokens_access_token_id_oauth_access_tokens_fk" "access_token_id"
      "oauth_access_tokens"]
  indexes := [("oauth_refresh_tokens_access_token_id", ["access_token_id"])]

def oauthChallengesTable : TableDef DataType DefaultValue where
  columns := oauthChallengesColumns
  foreignKeys :=
    [cascading "user_id_users_id_fk" "user_id" "users",
      cascading "client_id_oauth_clients_id_fk" "client_id" "oauth_clients"]
  indexes :=
    [("oauth_authorization_challenges_user_id", ["user_id"]),
      ("oauth_authorization_challenges_client_id", ["client_id"])]

theorem schema_eq : schema =
    [("users", usersTable), ("oauth_clients", oauthClientsTable),
      ("oauth_access_tokens", oauthAccessTokensTable),
      ("oauth_refresh_tokens", oauthRefreshTokensTable),
      ("oauth_authorization_challenges", oauthChallengesTable)] := by
  decide

theorem mem_schema {t : String} {d : TableDef DataType DefaultValue} : (t, d) ∈ schema ↔
    (t = "users" ∧ d = usersTable) ∨ (t = "oauth_clients" ∧ d = oauthClientsTable) ∨
      (t = "oauth_access_tokens" ∧ d = oauthAccessTokensTable) ∨
      (t = "oauth_refresh_tokens" ∧ d = oauthRefreshTokensTable) ∨
      (t = "oauth_authorization_challenges" ∧ d = oauthChallengesTable) := by
  rw [schema_eq]
  simp only [List.mem_cons, Prod.mk.injEq, List.not_mem_nil, or_false]

theorem usersTable_mem : ("users", usersTable) ∈ schema := mem_schema.mpr (by simp)

theorem oauthClientsTable_mem : ("oauth_clients", oauthClientsTable) ∈ schema :=
  mem_schema.mpr (by simp)

theorem oauthAccessTokensTable_mem : ("oauth_access_tokens", oauthAccessTokensTable) ∈ schema :=
  mem_schema.mpr (by simp)

theorem oauthRefreshTokensTable_mem : ("oauth_refresh_tokens", oauthRefreshTokensTable) ∈ schema :=
  mem_schema.mpr (by simp)

theorem oauthChallengesTable_mem : ("oauth_authorization_challenges", oauthChallengesTable) ∈ schema :=
  mem_schema.mpr (by simp)

/-! ## Rows -/

/-- A row by its cells. -/
def cells (cs : List (String × Option Value)) : Row Value := fun f => (cs.lookup f).getD none

/-- A cell of a column, which is `NULL` only where the column may be. -/
def Cell (cell : String × Option Value) (col : String × Column DataType DefaultValue) : Prop :=
  cell.1 = col.1 ∧ (col.2.allowNull = false → cell.2 ≠ none)

/-- The columns of the table have the types of the cells. -/
def Fits (cs : List (String × Option Value)) (d : TableDef DataType DefaultValue) : Prop :=
  List.Forall₂ (fun cell col => ∀ v ∈ cell.2, col.2.type.holds v = true) cs d.columns

instance (cs : List (String × Option Value)) (d : TableDef DataType DefaultValue) :
    Decidable (Fits cs d) :=
  inferInstanceAs (Decidable (List.Forall₂ _ _ _))

variable {cs : List (String × Option Value)} {cols : List (String × Column DataType DefaultValue)}

theorem cells_eq_none (h : List.Forall₂ Cell cs cols) {f : String} (hf : f ∉ cols.map Prod.fst) :
    cells cs f = none := by
  unfold cells
  induction h with
  | nil => rfl
  | @cons cell col cs cols hc _ ih =>
    rw [List.map_cons, List.mem_cons, not_or] at hf
    obtain ⟨n, v⟩ := cell
    have hne : (f == n) = false := beq_false_of_ne fun e => hf.1 (e.trans hc.1)
    rw [List.lookup_cons, hne]
    exact ih hf.2

/-- What holds of the cells, column by column, holds of the row. -/
theorem forall₂_cells {P : Option Value → Column DataType DefaultValue → Prop}
    (h : List.Forall₂ Cell cs cols) (hnd : (cols.map Prod.fst).Nodup) :
    List.Forall₂ (fun cell col => P cell.2 col.2) cs cols ↔
      ∀ f col, (f, col) ∈ cols → P (cells cs f) col := by
  induction h with
  | nil => simp
  | @cons cell col' cs cols hc _ ih =>
    rw [List.map_cons, List.nodup_cons] at hnd
    obtain ⟨n, v⟩ := cell
    obtain ⟨rfl, -⟩ : n = col'.1 ∧ _ := hc
    have hhead : cells ((col'.1, v) :: cs) col'.1 = v := by simp [cells]
    have htail : ∀ f col, (f, col) ∈ cols → cells ((col'.1, v) :: cs) f = cells cs f := by
      intro f col hcol
      have hne : (f == col'.1) = false :=
        beq_false_of_ne fun e => hnd.1 (e ▸ List.mem_map_of_mem hcol)
      simp only [cells, List.lookup_cons, hne]
    rw [List.forall₂_cons, ih hnd.2]
    constructor
    · rintro ⟨hv, hrest⟩ f col hcol
      cases List.mem_cons.mp hcol with
      | inl e =>
        cases e
        rwa [hhead]
      | inr hcol =>
        rw [htail f col hcol]
        exact hrest f col hcol
    · intro hall
      refine ⟨?_, fun f col hcol => ?_⟩
      · rw [← hhead]
        exact hall _ _ List.mem_cons_self
      · rw [← htail f col hcol]
        exact hall f col (List.mem_cons_of_mem _ hcol)

theorem cells_ne_none (h : List.Forall₂ Cell cs cols) (hnd : (cols.map Prod.fst).Nodup)
    {f : String} {col : Column DataType DefaultValue} (hcol : (f, col) ∈ cols)
    (hnull : col.allowNull = false) : cells cs f ≠ none :=
  (forall₂_cells (P := fun v col => col.allowNull = false → v ≠ none) h hnd).mp
    (h.imp fun _ _ hc => hc.2) f col hcol hnull

/-- The cells that a row has under some columns. -/
theorem cells_map (cols : List (String × Column DataType DefaultValue)) (r : Row Value) (f : String) :
    cells (cols.map fun col => (col.1, r col.1)) f = if f ∈ cols.map Prod.fst then r f else none := by
  unfold cells
  induction cols with
  | nil => rfl
  | cons col cols ih =>
    rw [List.map_cons, List.lookup_cons]
    by_cases hf : f = col.1
    · simp [hf]
    · have hne : (f == col.1) = false := beq_false_of_ne hf
      simp only [hne, ih, List.map_cons, List.mem_cons, hf, false_or]

/-! ### The rows of the five models -/

section Rows

/-- An id of a user. -/
def idValue (id : ℕ) : Value := .bigint id

/-- A `Date` in milliseconds since 1970. -/
def dateValue (ms : ℕ) : Value := .date (1000 * ms)

-- `created_at` and `updated_at` of the row under a primary key, which the models leave out
variable (times : String → Value → ℤ × ℤ)

def timeCells (table : String) (id : Value) : List (String × Option Value) :=
  [("created_at", some (.date (times table id).1)), ("updated_at", some (.date (times table id).2))]

def userCells (u : UserModel) : List (String × Option Value) :=
  [("id", some (idValue u.id)), ("email", some (.text u.email)),
    ("password", u.password.map .text)] ++ timeCells times "users" (idValue u.id)

def clientCells (c : ClientModel) : List (String × Option Value) :=
  [("id", some (.uuid c.id)), ("name", some (.text c.name)), ("secret", some (.text c.secret)),
    ("is_revoked", some (.boolean c.is_revoked)), ("grant_type", some (.text c.grant_type.text))] ++
    timeCells times "oauth_clients" (.uuid c.id)

def accessTokenCells (a : AccessTokenModel) : List (String × Option Value) :=
  [("id", some (.text a.id)), ("expires_at", a.expires_at.map dateValue),
    ("client_id", some (.uuid a.client_id)), ("user_id", a.user_id.map idValue)] ++
    timeCells times "oauth_access_tokens" (.text a.id)

def refreshTokenCells (r : RefreshTokenModel) : List (String × Option Value) :=
  [("id", some (.text r.id)), ("expires_at", r.expires_at.map dateValue),
    ("access_token_id", some (.text r.access_token_id))] ++
    timeCells times "oauth_refresh_tokens" (.text r.id)

def challengeCells (r : AuthorizationChallengeModel) : List (String × Option Value) :=
  [("id", some (.uuid r.id)), ("user_id", some (idValue r.user_id)),
    ("client_id", some (.uuid r.client_id)), ("challenge", some (.text r.challenge)),
    ("algorithm", some (.text r.algorithm))] ++
    timeCells times "oauth_authorization_challenges" (.uuid r.id)

variable (us : List UserModel) (cs : List ClientModel) (as : List AccessTokenModel)
  (rs : List RefreshTokenModel) (chs : List AuthorizationChallengeModel)

/-- The five tables with these rows. -/
def content : Content Value := fun t =>
  (([("users", us.map fun u => cells (userCells times u)),
    ("oauth_clients", cs.map fun c => cells (clientCells times c)),
    ("oauth_access_tokens", as.map fun a => cells (accessTokenCells times a)),
    ("oauth_refresh_tokens", rs.map fun r => cells (refreshTokenCells times r)),
    ("oauth_authorization_challenges", chs.map fun r => cells (challengeCells times r))] :
      List (String × List (Row Value))).lookup t).getD []

/-- The content of the database. -/
def storeContent (st : Store) : Content Value :=
  content times st.users.rows st.clients.rows st.accessTokens.rows st.refreshTokens.rows
    st.challenges.rows

theorem content_eq_nil {t : String} (ht : t ∉ schema.names) :
    content times us cs as rs chs t = [] := by
  rw [schema_eq] at ht
  simp only [Schema.names, List.map_cons, List.map_nil, List.mem_cons, List.not_mem_nil, or_false,
    not_or] at ht
  obtain ⟨h₁, h₂, h₃, h₄, h₅⟩ := ht
  simp only [content, List.lookup_cons, beq_false_of_ne h₁, beq_false_of_ne h₂, beq_false_of_ne h₃,
    beq_false_of_ne h₄, beq_false_of_ne h₅, List.lookup_nil, Option.getD_none]

theorem cell_user (u : UserModel) : List.Forall₂ Cell (userCells times u) usersTable.columns := by
  simp [userCells, usersTable, usersColumns, timestamps, timeCells, Cell]

theorem cell_client (c : ClientModel) :
    List.Forall₂ Cell (clientCells times c) oauthClientsTable.columns := by
  simp [clientCells, oauthClientsTable, oauthClientsColumns, timestamps, timeCells, Cell]

theorem cell_accessToken (a : AccessTokenModel) :
    List.Forall₂ Cell (accessTokenCells times a) oauthAccessTokensTable.columns := by
  simp [accessTokenCells, oauthAccessTokensTable, oauthAccessTokensColumns, timestamps, timeCells,
    Cell]

theorem cell_refreshToken (r : RefreshTokenModel) :
    List.Forall₂ Cell (refreshTokenCells times r) oauthRefreshTokensTable.columns := by
  simp [refreshTokenCells, oauthRefreshTokensTable, oauthRefreshTokensColumns, timestamps,
    timeCells, Cell]

theorem cell_challenge (r : AuthorizationChallengeModel) :
    List.Forall₂ Cell (challengeCells times r) oauthChallengesTable.columns := by
  simp [challengeCells, oauthChallengesTable, oauthChallengesColumns, timestamps, timeCells, Cell]

/-- Every row has the columns of its table, and a value in those that are not null. -/
theorem content_cells {t : String} {d : TableDef DataType DefaultValue} (hd : (t, d) ∈ schema)
    {r : Row Value} (hr : r ∈ content times us cs as rs chs t) :
    ∃ cs, r = cells cs ∧ List.Forall₂ Cell cs d.columns := by
  rcases mem_schema.mp hd with ⟨rfl, rfl⟩ | ⟨rfl, rfl⟩ | ⟨rfl, rfl⟩ | ⟨rfl, rfl⟩ | ⟨rfl, rfl⟩
  · obtain ⟨u, -, rfl⟩ := List.mem_map.mp (show r ∈ us.map fun u => cells (userCells times u) from hr)
    exact ⟨_, rfl, cell_user times u⟩
  · obtain ⟨c, -, rfl⟩ := List.mem_map.mp (show r ∈ cs.map fun c => cells (clientCells times c) from hr)
    exact ⟨_, rfl, cell_client times c⟩
  · obtain ⟨a, -, rfl⟩ := List.mem_map.mp
      (show r ∈ as.map fun a => cells (accessTokenCells times a) from hr)
    exact ⟨_, rfl, cell_accessToken times a⟩
  · obtain ⟨x, -, rfl⟩ := List.mem_map.mp
      (show r ∈ rs.map fun r => cells (refreshTokenCells times r) from hr)
    exact ⟨_, rfl, cell_refreshToken times x⟩
  · obtain ⟨x, -, rfl⟩ := List.mem_map.mp
      (show r ∈ chs.map fun r => cells (challengeCells times r) from hr)
    exact ⟨_, rfl, cell_challenge times x⟩

end Rows

/-! ### Columns of values -/

section Columns

variable {ρ κ : Type} {f : ρ → List (String × Option Value)} {n : String} {v : κ → Value}
  {key : ρ → κ} {l : List ρ}

/-- The values of a column that is not null. -/
theorem nodup_column (hv : Function.Injective v) (h : ∀ x, cells (f x) n = some (v (key x))) :
    ((l.map fun x => cells (f x)).filterMap fun r => r n).Nodup ↔ (l.map key).Nodup := by
  have hcol : (l.map fun x => cells (f x)).filterMap (fun r => r n) = (l.map key).map v := by
    rw [List.filterMap_map, List.map_map, ← List.filterMap_eq_map]
    exact List.filterMap_congr fun x _ => h x
  rw [hcol]
  exact List.nodup_map_iff hv

/-- A foreign key between two tables of such rows. -/
theorem refers_iff {ρ' : Type} {f' : ρ' → List (String × Option Value)} {key' : ρ' → κ}
    {l' : List ρ'} {c : Content Value} {t table field name : String} {ref : ρ → Option κ}
    (ht : c t = l.map fun x => cells (f x)) (htable : c table = l'.map fun y => cells (f' y))
    (hv : Function.Injective v) (href : ∀ x, cells (f x) field = (ref x).map v)
    (hkey : ∀ y, cells (f' y) "id" = some (v (key' y))) :
    Refers c t (cascading name field table) ↔
      ∀ x ∈ l, ∀ k ∈ ref x, ∃ y ∈ l', key' y = k := by
  unfold Refers
  rw [ht, show c (cascading name field table).table = _ from htable]
  constructor
  · intro h x hx k hk
    have hcell : cells (f x) field = some (v k) := by rw [href, Option.mem_def.mp hk]; rfl
    obtain ⟨r', hr', e⟩ := h _ (List.mem_map_of_mem hx) (v k) hcell
    obtain ⟨y, hy, rfl⟩ := List.mem_map.mp hr'
    exact ⟨y, hy, hv (Option.some.inj ((hkey y).symm.trans e))⟩
  · intro h r hr w hw
    obtain ⟨x, hx, rfl⟩ := List.mem_map.mp hr
    obtain ⟨k, hk, rfl⟩ := Option.map_eq_some_iff.mp ((href x).symm.trans hw)
    obtain ⟨y, hy, rfl⟩ := h x hx k hk
    exact ⟨_, List.mem_map_of_mem hy, hkey y⟩

end Columns

theorem idValue_injective : Function.Injective idValue :=
  fun _ _ h => Int.natCast_inj.mp (Value.bigint.inj h)

theorem text_injective : Function.Injective Value.text := fun _ _ => Value.text.inj

theorem uuid_injective : Function.Injective Value.uuid := fun _ _ => Value.uuid.inj

/-! ## The constraints -/

section Admits

variable (times : String → Value → ℤ × ℤ) {us : List UserModel} {cs : List ClientModel}
  {as : List AccessTokenModel} {rs : List RefreshTokenModel}
  {chs : List AuthorizationChallengeModel}

/-- What the foreign keys of the schema say. -/
theorem refers_content_iff :
    (∀ t d, (t, d) ∈ schema → ∀ fk ∈ d.foreignKeys, Refers (content times us cs as rs chs) t fk) ↔
      (∀ a ∈ as, ∃ c ∈ cs, c.id = a.client_id) ∧ (∀ a ∈ as, ∀ i ∈ a.user_id, ∃ u ∈ us, u.id = i) ∧
        (∀ r ∈ rs, ∃ a ∈ as, a.id = r.access_token_id) ∧ (∀ r ∈ chs, ∃ u ∈ us, u.id = r.user_id) ∧
          ∀ r ∈ chs, ∃ c ∈ cs, c.id = r.client_id := by
  have hac : Refers (content times us cs as rs chs) "oauth_access_tokens"
      (cascading "oauth_access_tokens_client_id_oauth_clients_fk" "client_id" "oauth_clients") ↔
      ∀ a ∈ as, ∀ k ∈ some a.client_id, ∃ c ∈ cs, c.id = k :=
    refers_iff rfl rfl uuid_injective (fun _ => rfl) fun _ => rfl
  have hau : Refers (content times us cs as rs chs) "oauth_access_tokens"
      (cascading "oauth_access_tokens_user_id_users_fk" "user_id" "users") ↔
      ∀ a ∈ as, ∀ k ∈ a.user_id, ∃ u ∈ us, u.id = k :=
    refers_iff rfl rfl idValue_injective (fun _ => rfl) fun _ => rfl
  have hra : Refers (content times us cs as rs chs) "oauth_refresh_tokens"
      (cascading "oauth_refresh_tokens_access_token_id_oauth_access_tokens_fk" "access_token_id"
        "oauth_access_tokens") ↔ ∀ r ∈ rs, ∀ k ∈ some r.access_token_id, ∃ a ∈ as, a.id = k :=
    refers_iff rfl rfl text_injective (fun _ => rfl) fun _ => rfl
  have hcu : Refers (content times us cs as rs chs) "oauth_authorization_challenges"
      (cascading "user_id_users_id_fk" "user_id" "users") ↔
      ∀ r ∈ chs, ∀ k ∈ some r.user_id, ∃ u ∈ us, u.id = k :=
    refers_iff rfl rfl idValue_injective (fun _ => rfl) fun _ => rfl
  have hcc : Refers (content times us cs as rs chs) "oauth_authorization_challenges"
      (cascading "client_id_oauth_clients_id_fk" "client_id" "oauth_clients") ↔
      ∀ r ∈ chs, ∀ k ∈ some r.client_id, ∃ c ∈ cs, c.id = k :=
    refers_iff rfl rfl uuid_injective (fun _ => rfl) fun _ => rfl
  simp only [Option.mem_some_iff, forall_eq'] at hac hra hcu hcc
  rw [← hac, ← hau, ← hra, ← hcu, ← hcc]
  constructor
  · intro h
    have ht := h "oauth_access_tokens" oauthAccessTokensTable oauthAccessTokensTable_mem
    have hr := h "oauth_refresh_tokens" oauthRefreshTokensTable oauthRefreshTokensTable_mem
    have hc := h "oauth_authorization_challenges" oauthChallengesTable oauthChallengesTable_mem
    exact ⟨ht _ (.head _), ht _ (.tail _ (.head _)), hr _ (.head _), hc _ (.head _),
      hc _ (.tail _ (.head _))⟩
  · rintro ⟨hac, hau, hra, hcu, hcc⟩ t d hd fk hfk
    rcases mem_schema.mp hd with ⟨rfl, rfl⟩ | ⟨rfl, rfl⟩ | ⟨rfl, rfl⟩ | ⟨rfl, rfl⟩ | ⟨rfl, rfl⟩
    · cases hfk
    · cases hfk
    · rcases List.mem_pair.mp hfk with rfl | rfl
      · exact hac
      · exact hau
    · cases List.mem_singleton.mp hfk
      exact hra
    · rcases List.mem_pair.mp hfk with rfl | rfl
      · exact hcu
      · exact hcc

theorem schema_keyed : ∀ e ∈ schema, ∀ c ∈ e.2.columns, c.2.keyed = true →
    c.1 = "id" ∨ e.1 = "users" ∧ c.1 = "email" := by
  rw [schema_eq]
  decide

theorem schema_ids : ∀ e ∈ schema, ∃ c ∈ e.2.columns, c.1 = "id" ∧ c.2.keyed = true := by
  rw [schema_eq]
  decide

theorem schema_columns_nodup : ∀ e ∈ schema, (e.2.columns.map Prod.fst).Nodup := by
  rw [schema_eq]
  decide

/-- What the primary keys and the unique e-mail say. -/
theorem unique_content_iff :
    (∀ t d, (t, d) ∈ schema → ∀ f col, (f, col) ∈ d.columns → col.keyed = true →
      ((content times us cs as rs chs t).filterMap fun r => r f).Nodup) ↔
      (us.map (·.id)).Nodup ∧ (us.map (·.email)).Nodup ∧ (cs.map (·.id)).Nodup ∧
        (as.map (·.id)).Nodup ∧ (rs.map (·.id)).Nodup ∧ (chs.map (·.id)).Nodup := by
  have hu : ((content times us cs as rs chs "users").filterMap fun r => r "id").Nodup ↔
      (us.map (·.id)).Nodup := nodup_column (f := userCells times) idValue_injective fun _ => rfl
  have he : ((content times us cs as rs chs "users").filterMap fun r => r "email").Nodup ↔
      (us.map (·.email)).Nodup := nodup_column (f := userCells times) text_injective fun _ => rfl
  have hc : ((content times us cs as rs chs "oauth_clients").filterMap fun r => r "id").Nodup ↔
      (cs.map (·.id)).Nodup := nodup_column (f := clientCells times) uuid_injective fun _ => rfl
  have ha : ((content times us cs as rs chs "oauth_access_tokens").filterMap
      fun r => r "id").Nodup ↔ (as.map (·.id)).Nodup :=
    nodup_column (f := accessTokenCells times) text_injective fun _ => rfl
  have hr : ((content times us cs as rs chs "oauth_refresh_tokens").filterMap
      fun r => r "id").Nodup ↔ (rs.map (·.id)).Nodup :=
    nodup_column (f := refreshTokenCells times) text_injective fun _ => rfl
  have hch : ((content times us cs as rs chs "oauth_authorization_challenges").filterMap
      fun r => r "id").Nodup ↔ (chs.map (·.id)).Nodup :=
    nodup_column (f := challengeCells times) uuid_injective fun _ => rfl
  rw [← hu, ← he, ← hc, ← ha, ← hr, ← hch]
  constructor
  · intro h
    have hid : ∀ t d, (t, d) ∈ schema →
        ((content times us cs as rs chs t).filterMap fun r => r "id").Nodup := by
      intro t d hd
      obtain ⟨⟨f, col⟩, hcol, rfl, hk⟩ := schema_ids _ hd
      exact h t d hd _ col hcol hk
    refine ⟨hid _ _ usersTable_mem, ?_, hid _ _ oauthClientsTable_mem,
      hid _ _ oauthAccessTokensTable_mem, hid _ _ oauthRefreshTokensTable_mem,
      hid _ _ oauthChallengesTable_mem⟩
    exact h "users" usersTable usersTable_mem "email" _ (.tail _ (.head _)) rfl
  · rintro ⟨hu, he, hc, ha, hr, hch⟩ t d hd f col hcol hk
    rcases schema_keyed _ hd _ hcol hk with hf | ⟨ht, hf⟩
    · obtain rfl : f = "id" := hf
      rcases mem_schema.mp hd with ⟨rfl, -⟩ | ⟨rfl, -⟩ | ⟨rfl, -⟩ | ⟨rfl, -⟩ | ⟨rfl, -⟩
      · exact hu
      · exact hc
      · exact ha
      · exact hr
      · exact hch
    · obtain rfl : t = "users" := ht
      obtain rfl : f = "email" := hf
      exact he

/-- The constraints of the migrated schema between the rows. -/
theorem admits_iff : Admits schema (content times us cs as rs chs) ↔
    ((us.map (·.id)).Nodup ∧ (us.map (·.email)).Nodup ∧ (cs.map (·.id)).Nodup ∧
      (as.map (·.id)).Nodup ∧ (rs.map (·.id)).Nodup ∧ (chs.map (·.id)).Nodup) ∧
    (∀ a ∈ as, ∃ c ∈ cs, c.id = a.client_id) ∧ (∀ a ∈ as, ∀ i ∈ a.user_id, ∃ u ∈ us, u.id = i) ∧
      (∀ r ∈ rs, ∃ a ∈ as, a.id = r.access_token_id) ∧ (∀ r ∈ chs, ∃ u ∈ us, u.id = r.user_id) ∧
        ∀ r ∈ chs, ∃ c ∈ cs, c.id = r.client_id := by
  rw [← unique_content_iff times, ← refers_content_iff times]
  constructor
  · exact fun h => ⟨h.unique, h.foreignKeys⟩
  · rintro ⟨hunique, hrefers⟩
    constructor
    · exact fun t => content_eq_nil times us cs as rs chs
    · intro t d hd r hr f hf
      obtain ⟨cs, rfl, hcells⟩ := content_cells times _ _ _ _ _ hd hr
      exact cells_eq_none hcells hf
    · intro t d hd f col hcol hnull r hr
      obtain ⟨cs, rfl, hcells⟩ := content_cells times _ _ _ _ _ hd hr
      exact cells_ne_none hcells (schema_columns_nodup _ hd) hcol hnull
    · exact hunique
    · exact hrefers

/-- E-mails are unique iff no two users share one. -/
theorem nodup_email_iff (h : (us.map (·.id)).Nodup) :
    (us.map (·.email)).Nodup ↔ ∀ u ∈ us, ∀ v ∈ us, u.email = v.email → u = v := by
  constructor
  · intro he u hu v hv e
    exact List.inj_on_of_nodup_map he hu hv e
  · intro he
    exact (List.Nodup.of_map _ h).map_on fun u hu v hv e => he u hu v hv e

theorem admits_storeContent (st : Store) : Admits schema (storeContent times st) :=
  (admits_iff times).mpr ⟨⟨st.users.nodup, (nodup_email_iff st.users.nodup).mpr st.user_email,
    st.clients.nodup, st.accessTokens.nodup, st.refreshTokens.nodup, st.challenges.nodup⟩,
    st.accessToken_client, st.accessToken_user, st.refreshToken_accessToken, st.challenge_user,
    st.challenge_client⟩

/-- The migrated schema admits the rows of stores, and no others. -/
theorem admits_content_iff : Admits schema (content times us cs as rs chs) ↔
    ∃ st : Store, st.users.rows = us ∧ st.clients.rows = cs ∧ st.accessTokens.rows = as ∧
      st.refreshTokens.rows = rs ∧ st.challenges.rows = chs := by
  constructor
  · intro h
    obtain ⟨⟨hu, he, hc, ha, hr, hch⟩, hac, hau, hra, hcu, hcc⟩ := (admits_iff times).mp h
    exact ⟨{ users := ⟨us, hu⟩
             clients := ⟨cs, hc⟩
             challenges := ⟨chs, hch⟩
             accessTokens := ⟨as, ha⟩
             refreshTokens := ⟨rs, hr⟩
             user_email := (nodup_email_iff hu).mp he
             challenge_user := hcu
             challenge_client := hcc
             accessToken_client := hac
             accessToken_user := hau
             refreshToken_accessToken := hra }, rfl, rfl, rfl, rfl, rfl⟩
  · rintro ⟨st, rfl, rfl, rfl, rfl, rfl⟩
    exact admits_storeContent times st

/-! ### Types -/

/-- The columns have the types of all cells. -/
structure RowsFit (times : String → Value → ℤ × ℤ) (us : List UserModel) (cs : List ClientModel)
    (as : List AccessTokenModel) (rs : List RefreshTokenModel)
    (chs : List AuthorizationChallengeModel) : Prop where
  users : ∀ u ∈ us, Fits (userCells times u) usersTable
  clients : ∀ c ∈ cs, Fits (clientCells times c) oauthClientsTable
  accessTokens : ∀ a ∈ as, Fits (accessTokenCells times a) oauthAccessTokensTable
  refreshTokens : ∀ r ∈ rs, Fits (refreshTokenCells times r) oauthRefreshTokensTable
  challenges : ∀ r ∈ chs, Fits (challengeCells times r) oauthChallengesTable

theorem typed_iff {ρ : Type} {f : ρ → List (String × Option Value)}
    {d : TableDef DataType DefaultValue} (hcell : ∀ x, List.Forall₂ Cell (f x) d.columns)
    (hnd : (d.columns.map Prod.fst).Nodup) (l : List ρ) :
    (∀ g col, (g, col) ∈ d.columns → ∀ r ∈ l.map fun x => cells (f x), ∀ v ∈ r g,
      col.type.holds v = true) ↔ ∀ x ∈ l, Fits (f x) d := by
  have hfits : ∀ x, Fits (f x) d ↔
      ∀ g col, (g, col) ∈ d.columns → ∀ v ∈ cells (f x) g, col.type.holds v = true := fun x =>
    forall₂_cells (P := fun v col => ∀ w ∈ v, col.type.holds w = true) (hcell x) hnd
  simp only [hfits, List.forall_mem_map]
  exact ⟨fun h x hx g col hcol => h g col hcol x hx, fun h g col hcol x hx => h x hx g col hcol⟩

/-- The migrated schema accepts rows that satisfy its constraints and fit its columns. -/
theorem accepts_content_iff : Accepts DataType.holds schema (content times us cs as rs chs) ↔
    Admits schema (content times us cs as rs chs) ∧ RowsFit times us cs as rs chs := by
  have htyped : ∀ {ρ : Type} {f : ρ → List (String × Option Value)}
      {d : TableDef DataType DefaultValue} {t : String} (hd : (t, d) ∈ schema)
      (hcell : ∀ x, List.Forall₂ Cell (f x) d.columns) (l : List ρ),
      (∀ g col, (g, col) ∈ d.columns → ∀ r ∈ l.map fun x => cells (f x), ∀ v ∈ r g,
        col.type.holds v = true) ↔ ∀ x ∈ l, Fits (f x) d :=
    fun hd hcell => typed_iff hcell (schema_columns_nodup _ hd)
  have hu := htyped usersTable_mem (cell_user times) us
  have hc := htyped oauthClientsTable_mem (cell_client times) cs
  have ha := htyped oauthAccessTokensTable_mem (cell_accessToken times) as
  have hr := htyped oauthRefreshTokensTable_mem (cell_refreshToken times) rs
  have hch := htyped oauthChallengesTable_mem (cell_challenge times) chs
  constructor
  · intro h
    exact ⟨h.toAdmits, hu.mp (h.typed _ _ usersTable_mem), hc.mp (h.typed _ _ oauthClientsTable_mem),
      ha.mp (h.typed _ _ oauthAccessTokensTable_mem),
      hr.mp (h.typed _ _ oauthRefreshTokensTable_mem), hch.mp (h.typed _ _ oauthChallengesTable_mem)⟩
  · rintro ⟨hadmits, hfit⟩
    refine ⟨hadmits, fun t d hd => ?_⟩
    rcases mem_schema.mp hd with ⟨rfl, rfl⟩ | ⟨rfl, rfl⟩ | ⟨rfl, rfl⟩ | ⟨rfl, rfl⟩ | ⟨rfl, rfl⟩
    · exact hu.mpr hfit.users
    · exact hc.mpr hfit.clients
    · exact ha.mpr hfit.accessTokens
    · exact hr.mpr hfit.refreshTokens
    · exact hch.mpr hfit.challenges

/-! ## Writes -/

theorem rows_insert? {ρ κ : Type} [DecidableEq κ] {key : ρ → κ} {t t' : Table key} {r : ρ}
    (h : t.insert? r = some t') : t'.rows = r :: t.rows := by
  unfold Table.insert? at h
  split at h
  · cases h
  · cases h
    rfl

/-- A row whose key is new. -/
theorem exists_insert? {ρ κ : Type} [DecidableEq κ] {key : ρ → κ} {t : Table key} {r : ρ}
    (h : ((r :: t.rows).map key).Nodup) : ∃ t', t.insert? r = some t' := by
  refine Option.isSome_iff_exists.mp (Table.insert?_isSome.mpr fun r' hr' e => ?_)
  rw [List.map_cons, List.nodup_cons] at h
  exact h.1 (e ▸ List.mem_map_of_mem hr')

variable (st : Store)

theorem insertUser_admitted (u : UserModel) :
    (∃ st', st.insertUser u = .ok st' ∧ storeContent times st' = content times (u :: st.users.rows)
      st.clients.rows st.accessTokens.rows st.refreshTokens.rows st.challenges.rows) ↔
    Admits schema (content times (u :: st.users.rows) st.clients.rows st.accessTokens.rows
      st.refreshTokens.rows st.challenges.rows) := by
  constructor
  · rintro ⟨st', -, e⟩
    exact e ▸ admits_storeContent times st'
  · intro h
    obtain ⟨⟨hid, hemail, -⟩, -⟩ := (admits_iff times).mp h
    obtain ⟨users, husers⟩ := exists_insert? (t := st.users) hid
    have hfresh : ∀ v ∈ st.users, v.email ≠ u.email := by
      intro v hv e
      rw [List.map_cons, List.nodup_cons] at hemail
      exact hemail.1 (e ▸ List.mem_map_of_mem hv)
    unfold Store.insertUser
    split
    · rename_i hnone
      rw [hnone] at husers
      cases husers
    · rename_i users' husers'
      rw [dif_pos hfresh]
      refine ⟨_, rfl, ?_⟩
      simp only [storeContent, rows_insert? husers']

theorem insertClient_admitted (c : ClientModel) :
    (∃ st', st.insertClient c = .ok st' ∧ storeContent times st' = content times st.users.rows
      (c :: st.clients.rows) st.accessTokens.rows st.refreshTokens.rows st.challenges.rows) ↔
    Admits schema (content times st.users.rows (c :: st.clients.rows) st.accessTokens.rows
      st.refreshTokens.rows st.challenges.rows) := by
  constructor
  · rintro ⟨st', -, e⟩
    exact e ▸ admits_storeContent times st'
  · intro h
    obtain ⟨⟨-, -, hid, -⟩, -⟩ := (admits_iff times).mp h
    obtain ⟨clients, hclients⟩ := exists_insert? (t := st.clients) hid
    unfold Store.insertClient
    split
    · rename_i hnone
      rw [hnone] at hclients
      cases hclients
    · rename_i clients' hclients'
      refine ⟨_, rfl, ?_⟩
      simp only [storeContent, rows_insert? hclients']

/-- PostgreSQL also refuses a challenge that is not a text. -/
theorem insertChallenge_admitted (r : AuthorizationChallengeModel) :
    (∃ st', st.insertChallenge r = .ok st' ∧ storeContent times st' = content times st.users.rows
      st.clients.rows st.accessTokens.rows st.refreshTokens.rows (r :: st.challenges.rows)) ↔
    Store.isText r.challenge = true ∧ Admits schema (content times st.users.rows st.clients.rows
      st.accessTokens.rows st.refreshTokens.rows (r :: st.challenges.rows)) := by
  constructor
  · rintro ⟨st', hok, e⟩
    exact ⟨(Store.insertChallenge_isOk.mp ⟨st', hok⟩).2.1, e ▸ admits_storeContent times st'⟩
  · rintro ⟨htext, h⟩
    obtain ⟨⟨-, -, -, -, -, hid⟩, -, -, -, hu, hc⟩ := (admits_iff times).mp h
    obtain ⟨challenges, hchallenges⟩ := exists_insert? (t := st.challenges) hid
    have hfk : Store.isText r.challenge = true ∧ (∃ u ∈ st.users, u.id = r.user_id) ∧
        ∃ c ∈ st.clients, c.id = r.client_id :=
      ⟨htext, hu r List.mem_cons_self, hc r List.mem_cons_self⟩
    unfold Store.insertChallenge
    split
    · rename_i hnone
      rw [hnone] at hchallenges
      cases hchallenges
    · rename_i challenges' hchallenges'
      rw [dif_pos hfk]
      refine ⟨_, rfl, ?_⟩
      simp only [storeContent, rows_insert? hchallenges']

theorem insertAccessToken_admitted (a : AccessTokenModel) :
    (∃ st', st.insertAccessToken a = .ok st' ∧ storeContent times st' = content times st.users.rows
      st.clients.rows (a :: st.accessTokens.rows) st.refreshTokens.rows st.challenges.rows) ↔
    Admits schema (content times st.users.rows st.clients.rows (a :: st.accessTokens.rows)
      st.refreshTokens.rows st.challenges.rows) := by
  constructor
  · rintro ⟨st', -, e⟩
    exact e ▸ admits_storeContent times st'
  · intro h
    obtain ⟨⟨-, -, -, hid, -⟩, hc, hu, -⟩ := (admits_iff times).mp h
    obtain ⟨accessTokens, haccessTokens⟩ := exists_insert? (t := st.accessTokens) hid
    have hfk : (∃ c ∈ st.clients, c.id = a.client_id) ∧ ∀ i ∈ a.user_id, ∃ u ∈ st.users, u.id = i :=
      ⟨hc a List.mem_cons_self, hu a List.mem_cons_self⟩
    unfold Store.insertAccessToken
    split
    · rename_i hnone
      rw [hnone] at haccessTokens
      cases haccessTokens
    · rename_i accessTokens' haccessTokens'
      rw [dif_pos hfk]
      refine ⟨_, rfl, ?_⟩
      simp only [storeContent, rows_insert? haccessTokens']

theorem insertRefreshToken_admitted (r : RefreshTokenModel) :
    (∃ st', st.insertRefreshToken r = .ok st' ∧ storeContent times st' = content times st.users.rows
      st.clients.rows st.accessTokens.rows (r :: st.refreshTokens.rows) st.challenges.rows) ↔
    Admits schema (content times st.users.rows st.clients.rows st.accessTokens.rows
      (r :: st.refreshTokens.rows) st.challenges.rows) := by
  constructor
  · rintro ⟨st', -, e⟩
    exact e ▸ admits_storeContent times st'
  · intro h
    obtain ⟨⟨-, -, -, -, hid, -⟩, -, -, ha, -⟩ := (admits_iff times).mp h
    obtain ⟨refreshTokens, hrefreshTokens⟩ := exists_insert? (t := st.refreshTokens) hid
    have hfk : ∃ a ∈ st.accessTokens, a.id = r.access_token_id := ha r List.mem_cons_self
    unfold Store.insertRefreshToken
    split
    · rename_i hnone
      rw [hnone] at hrefreshTokens
      cases hrefreshTokens
    · rename_i refreshTokens' hrefreshTokens'
      rw [dif_pos hfk]
      refine ⟨_, rfl, ?_⟩
      simp only [storeContent, rows_insert? hrefreshTokens']

/-- The ids of tokens and the secrets of clients, which are made of 40 random bytes, fit. -/
theorem isVarchar_hex (bytes : Vector UInt8 40) {length : ℕ} (h : 80 ≤ length) :
    isVarchar length (hex bytes.toList) = true := by
  have hdigit : ∀ n : Fin 16, hexDigit n ≠ '\x00' := by decide
  have htext : '\x00' ∉ hexChars bytes.toList := by
    unfold hexChars
    rw [List.mem_flatMap]
    rintro ⟨b, -, hb⟩
    rcases List.mem_pair.mp hb with hb | hb
    · exact hdigit ⟨_, Nat.div_lt_of_lt_mul b.toNat_lt⟩ hb.symm
    · exact hdigit ⟨_, Nat.mod_lt _ (by decide)⟩ hb.symm
  have hlength : (hex bytes.toList).length = 80 := by
    rw [hex, String.length_ofList, length_hexChars, Vector.length_toList]
  rw [isVarchar, hlength, Store.isText, hex, String.toList_ofList]
  simpa [h] using htext

/-- Only texts fit the column of the challenge. -/
theorem isText_of_fits {r : AuthorizationChallengeModel}
    (h : Fits (challengeCells times r) oauthChallengesTable) : Store.isText r.challenge = true := by
  have hrest := (List.forall₂_cons.mp (List.forall₂_cons.mp (List.forall₂_cons.mp h).2).2).2
  exact (List.forall₂_cons.mp hrest).1 _ rfl

/-- E-mails have at most 255 characters. -/
theorem isVarchar_of_fits {u : UserModel} (h : Fits (userCells times u) usersTable) :
    isVarchar 255 u.email = true :=
  (List.forall₂_cons.mp (List.forall₂_cons.mp h).2).1 _ rfl

/-- In a store that the migrated schema accepts, it accepts the rows with a new one exactly if the
    store takes the row, which then leads to these rows, and the row fits the columns. -/
theorem inserts_admitted (hst : Accepts DataType.holds schema (storeContent times st)) :
    (∀ u, (∃ st', st.insertUser u = .ok st' ∧ storeContent times st' = content times
        (u :: st.users.rows) st.clients.rows st.accessTokens.rows st.refreshTokens.rows
        st.challenges.rows) ∧ Fits (userCells times u) usersTable ↔
      Accepts DataType.holds schema (content times (u :: st.users.rows) st.clients.rows
        st.accessTokens.rows st.refreshTokens.rows st.challenges.rows)) ∧
    (∀ c, (∃ st', st.insertClient c = .ok st' ∧ storeContent times st' = content times st.users.rows
        (c :: st.clients.rows) st.accessTokens.rows st.refreshTokens.rows st.challenges.rows) ∧
        Fits (clientCells times c) oauthClientsTable ↔
      Accepts DataType.holds schema (content times st.users.rows (c :: st.clients.rows)
        st.accessTokens.rows st.refreshTokens.rows st.challenges.rows)) ∧
    (∀ a, (∃ st', st.insertAccessToken a = .ok st' ∧ storeContent times st' = content times
        st.users.rows st.clients.rows (a :: st.accessTokens.rows) st.refreshTokens.rows
        st.challenges.rows) ∧ Fits (accessTokenCells times a) oauthAccessTokensTable ↔
      Accepts DataType.holds schema (content times st.users.rows st.clients.rows
        (a :: st.accessTokens.rows) st.refreshTokens.rows st.challenges.rows)) ∧
    (∀ r, (∃ st', st.insertRefreshToken r = .ok st' ∧ storeContent times st' = content times
        st.users.rows st.clients.rows st.accessTokens.rows (r :: st.refreshTokens.rows)
        st.challenges.rows) ∧ Fits (refreshTokenCells times r) oauthRefreshTokensTable ↔
      Accepts DataType.holds schema (content times st.users.rows st.clients.rows
        st.accessTokens.rows (r :: st.refreshTokens.rows) st.challenges.rows)) ∧
    ∀ r, (∃ st', st.insertChallenge r = .ok st' ∧ storeContent times st' = content times
        st.users.rows st.clients.rows st.accessTokens.rows st.refreshTokens.rows
        (r :: st.challenges.rows)) ∧ Fits (challengeCells times r) oauthChallengesTable ↔
      Accepts DataType.holds schema (content times st.users.rows st.clients.rows
        st.accessTokens.rows st.refreshTokens.rows (r :: st.challenges.rows)) := by
  obtain ⟨-, hu, hc, ha, hr, hch⟩ := (accepts_content_iff times).mp hst
  refine ⟨fun u => ?_, fun c => ?_, fun a => ?_, fun r => ?_, fun r => ?_⟩
  · rw [insertUser_admitted, accepts_content_iff]
    refine and_congr_right fun _ => ⟨fun h => ⟨?_, hc, ha, hr, hch⟩, fun h => ?_⟩
    · exact List.forall_mem_cons.mpr ⟨h, hu⟩
    · exact h.users u List.mem_cons_self
  · rw [insertClient_admitted, accepts_content_iff]
    refine and_congr_right fun _ => ⟨fun h => ⟨hu, ?_, ha, hr, hch⟩, fun h => ?_⟩
    · exact List.forall_mem_cons.mpr ⟨h, hc⟩
    · exact h.clients c List.mem_cons_self
  · rw [insertAccessToken_admitted, accepts_content_iff]
    refine and_congr_right fun _ => ⟨fun h => ⟨hu, hc, ?_, hr, hch⟩, fun h => ?_⟩
    · exact List.forall_mem_cons.mpr ⟨h, ha⟩
    · exact h.accessTokens a List.mem_cons_self
  · rw [insertRefreshToken_admitted, accepts_content_iff]
    refine and_congr_right fun _ => ⟨fun h => ⟨hu, hc, ha, ?_, hch⟩, fun h => ?_⟩
    · exact List.forall_mem_cons.mpr ⟨h, hr⟩
    · exact h.refreshTokens r List.mem_cons_self
  · rw [insertChallenge_admitted, accepts_content_iff]
    constructor
    · rintro ⟨⟨-, hadmits⟩, h⟩
      exact ⟨hadmits, hu, hc, ha, hr, List.forall_mem_cons.mpr ⟨h, hch⟩⟩
    · rintro ⟨hadmits, hfit⟩
      have h := hfit.challenges r List.mem_cons_self
      exact ⟨⟨isText_of_fits times h, hadmits⟩, h⟩

namespace Sample

/-- All rows are written in 1970. -/
def epoch : String → Value → ℤ × ℤ := fun _ _ => (0, 0)

/-- The user and the client of the sample runs. -/
def store : Store := NestTemplate.Sample.clientStore .PKCE

theorem accepts_store : Accepts DataType.holds schema (storeContent epoch store) := by
  refine (accepts_content_iff epoch).mpr ⟨admits_storeContent epoch store, ?_, ?_, ?_, ?_, ?_⟩
  all_goals decide

/-- A user whose e-mail has 300 characters. -/
def longUser : UserModel where
  id := 2
  email := String.ofList (List.replicate 300 'a')
  password := none

theorem not_fits_longUser : ¬ Fits (userCells epoch longUser) usersTable := by
  intro h
  have hemail := isVarchar_of_fits epoch h
  have hlength : longUser.email.length = 300 := by
    rw [longUser, String.length_ofList, List.length_replicate]
  rw [isVarchar, hlength, Bool.and_eq_true_iff] at hemail
  exact absurd hemail.1 (by decide)

end Sample

/-- A code goes in, a user whose e-mail is too long does not. -/
theorem inserts_admitted_sample :
    Accepts DataType.holds schema (content Sample.epoch Sample.store.users.rows
      Sample.store.clients.rows Sample.store.accessTokens.rows Sample.store.refreshTokens.rows
      (NestTemplate.Sample.code .PKCE :: Sample.store.challenges.rows)) ∧
    ¬ Accepts DataType.holds schema (content Sample.epoch (Sample.longUser :: Sample.store.users.rows)
      Sample.store.clients.rows Sample.store.accessTokens.rows Sample.store.refreshTokens.rows
      Sample.store.challenges.rows) := by
  obtain ⟨huser, -, -, -, hchallenge⟩ :=
    inserts_admitted Sample.epoch Sample.store Sample.accepts_store
  constructor
  · refine (hchallenge (NestTemplate.Sample.code .PKCE)).mp ⟨⟨_, rfl, rfl⟩, by decide⟩
  · exact fun h => Sample.not_fits_longUser ((huser Sample.longUser).mpr h).2

/-! ## Deletes -/

/-- `DELETE FROM table WHERE id = id`. -/
def whereId (table : String) (id : Value) (t : String) (r : Row Value) : Prop :=
  t = table ∧ r "id" = some id

/-- Rows of another table, of which none are to go. -/
theorem whereId_other {table t : String} {id : Value} {r : Row Value} {b : Bool} (ht : t ≠ table)
    (hb : b = true) : whereId table id t r ↔ b = false := by
  simp [whereId, ht, hb]

/-- Rows of the table itself, told apart by their ids. -/
theorem whereId_own {κ : Type} [DecidableEq κ] {v : κ → Value} {table : String} {r : Row Value}
    {k id : κ} (hv : Function.Injective v) (hr : r "id" = some (v k)) :
    whereId table (v id) table r ↔ decide (k ≠ id) = false := by
  simp [whereId, hr, hv.eq_iff]

theorem schema_cascades : Cascades schema := by
  intro t d hd fk hfk
  have : ∀ e ∈ schema, ∀ fk ∈ e.2.foreignKeys, fk.onDelete = .cascade := by
    rw [schema_eq]
    decide
  exact this _ hd fk hfk

theorem schema_fkeyed : Keyed schema := by
  intro t d hd fk hfk
  have : ∀ e ∈ schema, ∀ fk ∈ e.2.foreignKeys, ∃ e' ∈ schema, e'.1 = fk.table ∧
      ∃ col ∈ e'.2.columns, col.1 = fk.key ∧ col.2.keyed = true := by
    rw [schema_eq]
    decide
  obtain ⟨⟨t', d'⟩, hd', rfl, ⟨f, col⟩, hcol, rfl, hk⟩ := this _ hd fk hfk
  exact ⟨d', col, hd', hcol, hk⟩

section Retain

variable {times st} {pu : UserModel → Bool} {pc : ClientModel → Bool}
  {pr : AuthorizationChallengeModel → Bool} {pa : AccessTokenModel → Bool}
  {sel : String → Row Value → Prop}

/-- Keeping some of the rows of a table, as a filter on its cells. -/
theorem map_filter_cells {ρ κ : Type} {f : ρ → List (String × Option Value)} {v : κ → Value}
    {key : ρ → κ} (hv : Function.Injective v) (hid : ∀ x, cells (f x) "id" = some (v (key x)))
    {t : Table key} (p : ρ → Bool) (q : Row Value → Bool)
    (hq : ∀ r, q r = true ↔ r ∈ (t.filter p).rows.map fun x => cells (f x)) :
    (t.filter p).rows.map (fun x => cells (f x)) =
      (t.rows.map fun x => cells (f x)).filter q := by
  rw [List.filter_map]
  congr 1
  refine List.filter_congr fun x hx => ?_
  rw [Bool.eq_iff_iff, Function.comp_apply, hq]
  constructor
  · intro hp
    exact List.mem_map_of_mem (List.mem_filter.mpr ⟨hx, hp⟩)
  · intro hmem
    obtain ⟨y, hy, e⟩ := List.mem_map.mp hmem
    obtain ⟨hy, hp⟩ := List.mem_filter.mp hy
    have hkey : key y = key x := by
      have := congrFun e "id"
      rw [hid, hid] at this
      exact hv (Option.some.inj this)
    rwa [← Table.eq_of_key_eq hy hx hkey]

theorem mem_storeContent {st : Store} {t : String} {r : Row Value}
    (hr : r ∈ storeContent times st t) :
    (t = "users" ∧ ∃ u ∈ st.users, cells (userCells times u) = r) ∨
    (t = "oauth_clients" ∧ ∃ c ∈ st.clients, cells (clientCells times c) = r) ∨
    (t = "oauth_access_tokens" ∧ ∃ a ∈ st.accessTokens, cells (accessTokenCells times a) = r) ∨
    (t = "oauth_refresh_tokens" ∧ ∃ x ∈ st.refreshTokens, cells (refreshTokenCells times x) = r) ∨
    (t = "oauth_authorization_challenges" ∧
      ∃ x ∈ st.challenges, cells (challengeCells times x) = r) := by
  by_cases ht : t ∈ schema.names
  · obtain ⟨d, hd⟩ := Schema.mem_names.mp ht
    rcases mem_schema.mp hd with ⟨rfl, -⟩ | ⟨rfl, -⟩ | ⟨rfl, -⟩ | ⟨rfl, -⟩ | ⟨rfl, -⟩
    · exact .inl ⟨rfl, List.mem_map.mp hr⟩
    · exact .inr (.inl ⟨rfl, List.mem_map.mp hr⟩)
    · exact .inr (.inr (.inl ⟨rfl, List.mem_map.mp hr⟩))
    · exact .inr (.inr (.inr (.inl ⟨rfl, List.mem_map.mp hr⟩)))
    · exact .inr (.inr (.inr (.inr ⟨rfl, List.mem_map.mp hr⟩)))
  · rw [storeContent, content_eq_nil times _ _ _ _ _ ht] at hr
    cases hr

open Classical in
/-- A store with some of the rows, as a filter on their cells. -/
theorem storeContent_retain (t : String) : storeContent times (st.retain pu pc pr pa) t =
    (storeContent times st t).filter fun r => r ∈ storeContent times (st.retain pu pc pr pa) t := by
  by_cases ht : t ∈ schema.names
  · obtain ⟨d, hd⟩ := Schema.mem_names.mp ht
    rcases mem_schema.mp hd with ⟨rfl, -⟩ | ⟨rfl, -⟩ | ⟨rfl, -⟩ | ⟨rfl, -⟩ | ⟨rfl, -⟩
    · exact map_filter_cells (f := userCells times) idValue_injective (fun _ => rfl) _ _
        fun r => decide_eq_true_iff
    · exact map_filter_cells (f := clientCells times) uuid_injective (fun _ => rfl) _ _
        fun r => decide_eq_true_iff
    · exact map_filter_cells (f := accessTokenCells times) text_injective (fun _ => rfl) _ _
        fun r => decide_eq_true_iff
    · exact map_filter_cells (f := refreshTokenCells times) text_injective (fun _ => rfl) _ _
        fun r => decide_eq_true_iff
    · exact map_filter_cells (f := challengeCells times) uuid_injective (fun _ => rfl) _ _
        fun r => decide_eq_true_iff
  · have hnil : ∀ st : Store, storeContent times st t = [] := fun st =>
      content_eq_nil times _ _ _ _ _ ht
    rw [hnil, hnil, List.filter_nil]

/-- The condition of the delete picks the rows that `retain` is told to drop. -/
structure Selects (times : String → Value → ℤ × ℤ) (st : Store) (pu : UserModel → Bool)
    (pc : ClientModel → Bool) (pr : AuthorizationChallengeModel → Bool)
    (pa : AccessTokenModel → Bool) (sel : String → Row Value → Prop) : Prop where
  users : ∀ u ∈ st.users, sel "users" (cells (userCells times u)) ↔ pu u = false
  clients : ∀ c ∈ st.clients, sel "oauth_clients" (cells (clientCells times c)) ↔ pc c = false
  challenges : ∀ r ∈ st.challenges,
    sel "oauth_authorization_challenges" (cells (challengeCells times r)) ↔ pr r = false
  accessTokens : ∀ a ∈ st.accessTokens,
    sel "oauth_access_tokens" (cells (accessTokenCells times a)) ↔ pa a = false
  refreshTokens : ∀ r ∈ st.refreshTokens,
    ¬ sel "oauth_refresh_tokens" (cells (refreshTokenCells times r))

variable (h : Selects times st pu pc pr pa sel)
include h

theorem Selects.user {u : UserModel} (hu : u ∈ st.users) (hp : pu u = false) :
    Deleted schema (storeContent times st) sel "users" (cells (userCells times u)) :=
  .selected (List.mem_map_of_mem hu) ((h.users u hu).mpr hp)

theorem Selects.client {c : ClientModel} (hc : c ∈ st.clients) (hp : pc c = false) :
    Deleted schema (storeContent times st) sel "oauth_clients" (cells (clientCells times c)) :=
  .selected (List.mem_map_of_mem hc) ((h.clients c hc).mpr hp)

theorem Selects.challenge {r : AuthorizationChallengeModel} (hr : r ∈ st.challenges)
    (hgone : r ∉ (st.retain pu pc pr pa).challenges) :
    Deleted schema (storeContent times st) sel "oauth_authorization_challenges"
      (cells (challengeCells times r)) := by
  have hmem : cells (challengeCells times r) ∈
      storeContent times st "oauth_authorization_challenges" := List.mem_map_of_mem hr
  obtain ⟨u, hu, eu⟩ := st.challenge_user r hr
  obtain ⟨c, hc, ec⟩ := st.challenge_client r hr
  by_cases hpu : pu u = true
  · by_cases hpc : pc c = true
    · have hpr : pr r = false := by
        by_contra hpr
        exact hgone (Store.mem_challenges_retain.mpr
          ⟨hr, by simpa using hpr, ⟨u, hu, hpu, eu⟩, c, hc, hpc, ec⟩)
      exact .selected hmem ((h.challenges r hr).mpr hpr)
    · refine .cascade hmem oauthChallengesTable_mem (.tail _ (.head _)) rfl rfl
        (List.mem_map_of_mem hc) ?_
        (h.client hc (by simpa using hpc))
      rw [← ec]
      rfl
  · refine .cascade hmem oauthChallengesTable_mem (.head _) rfl rfl (List.mem_map_of_mem hu) ?_
      (h.user hu (by simpa using hpu))
    rw [← eu]
    rfl

theorem Selects.accessToken {a : AccessTokenModel} (ha : a ∈ st.accessTokens)
    (hgone : a ∉ (st.retain pu pc pr pa).accessTokens) :
    Deleted schema (storeContent times st) sel "oauth_access_tokens"
      (cells (accessTokenCells times a)) := by
  have hmem : cells (accessTokenCells times a) ∈ storeContent times st "oauth_access_tokens" :=
    List.mem_map_of_mem ha
  obtain ⟨c, hc, ec⟩ := st.accessToken_client a ha
  by_cases hpc : pc c = true
  · by_cases hpu : ∀ i ∈ a.user_id, ∃ u ∈ st.users, pu u = true ∧ u.id = i
    · have hpa : pa a = false := by
        by_contra hpa
        exact hgone (Store.mem_accessTokens_retain.mpr
          ⟨ha, by simpa using hpa, ⟨c, hc, hpc, ec⟩, hpu⟩)
      exact .selected hmem ((h.accessTokens a ha).mpr hpa)
    · push Not at hpu
      obtain ⟨i, hi, hno⟩ := hpu
      obtain ⟨u, hu, eu⟩ := st.accessToken_user a ha i hi
      have hcell : cells (accessTokenCells times a) "user_id" = some (idValue i) := by
        show a.user_id.map idValue = _
        rw [Option.mem_def.mp hi]
        rfl
      refine .cascade hmem oauthAccessTokensTable_mem (.tail _ (.head _)) rfl hcell
        (List.mem_map_of_mem hu) ?_
        (h.user hu (by simpa using fun hp => hno u hu hp eu))
      rw [← eu]
      rfl
  · refine .cascade hmem oauthAccessTokensTable_mem (.head _) rfl rfl (List.mem_map_of_mem hc) ?_
      (h.client hc (by simpa using hpc))
    rw [← ec]
    rfl

theorem Selects.refreshToken {r : RefreshTokenModel} (hr : r ∈ st.refreshTokens)
    (hgone : r ∉ (st.retain pu pc pr pa).refreshTokens) :
    Deleted schema (storeContent times st) sel "oauth_refresh_tokens"
      (cells (refreshTokenCells times r)) := by
  obtain ⟨a, ha, ea⟩ := st.refreshToken_accessToken r hr
  have hgone' : a ∉ (st.retain pu pc pr pa).accessTokens := fun ha' =>
    hgone (Store.mem_refreshTokens_retain.mpr ⟨hr, a, ha', ea⟩)
  refine .cascade (List.mem_map_of_mem hr) oauthRefreshTokensTable_mem (.head _) rfl rfl
    (List.mem_map_of_mem ha) ?_
    (h.accessToken ha hgone')
  rw [← ea]
  rfl

/-- What `retain` leaves is what the cascading delete leaves. -/
theorem Selects.delete_eq :
    delete schema (storeContent times st) sel = storeContent times (st.retain pu pc pr pa) := by
  classical
  have hkeep : (fun t => (storeContent times st t).filter fun r =>
      r ∈ storeContent times (st.retain pu pc pr pa) t) =
      storeContent times (st.retain pu pc pr pa) := funext fun t => (storeContent_retain t).symm
  rw [← hkeep]
  refine Relational.delete_eq (admits_storeContent times st) schema_fkeyed
    (fun t r => r ∈ storeContent times (st.retain pu pc pr pa) t) ?_ ?_ ?_
  · rw [hkeep]
    exact (admits_storeContent times _).foreignKeys
  · intro t r _ hkept hsel
    rcases mem_storeContent (of_decide_eq_true hkept) with ⟨rfl, u, hu, rfl⟩ | ⟨rfl, c, hc, rfl⟩ |
      ⟨rfl, a, ha, rfl⟩ | ⟨rfl, x, hx, rfl⟩ | ⟨rfl, x, hx, rfl⟩
    · obtain ⟨hu, hp⟩ := Table.mem_filter.mp hu
      simp [(h.users u hu).mp hsel] at hp
    · obtain ⟨hc, hp⟩ := Store.mem_clients_retain.mp hc
      simp [(h.clients c hc).mp hsel] at hp
    · obtain ⟨ha, hp, -⟩ := Store.mem_accessTokens_retain.mp ha
      simp [(h.accessTokens a ha).mp hsel] at hp
    · exact h.refreshTokens x (Store.mem_refreshTokens_retain.mp hx).1 hsel
    · obtain ⟨hx, hp, -⟩ := Store.mem_challenges_retain.mp hx
      simp [(h.challenges x hx).mp hsel] at hp
  · intro t r hr hgone
    have hgone : r ∉ storeContent times (st.retain pu pc pr pa) t := of_decide_eq_false hgone
    rcases mem_storeContent hr with ⟨rfl, u, hu, rfl⟩ | ⟨rfl, c, hc, rfl⟩ | ⟨rfl, a, ha, rfl⟩ |
      ⟨rfl, x, hx, rfl⟩ | ⟨rfl, x, hx, rfl⟩
    · refine h.user hu ?_
      by_contra hp
      exact hgone (List.mem_map_of_mem (Table.mem_filter.mpr ⟨hu, by simpa using hp⟩))
    · refine h.client hc ?_
      by_contra hp
      exact hgone (List.mem_map_of_mem (Store.mem_clients_retain.mpr ⟨hc, by simpa using hp⟩))
    · exact h.accessToken ha fun hkept => hgone (List.mem_map_of_mem hkept)
    · exact h.refreshToken hx fun hkept => hgone (List.mem_map_of_mem hkept)
    · exact h.challenge hx fun hkept => hgone (List.mem_map_of_mem hkept)

end Retain

/-- Every delete of the store leaves what the migrated schema's cascading delete leaves; no foreign
    key is in the way of any delete. -/
theorem deletes_cascade :
    (∀ sel, Admits schema (delete schema (storeContent times st) sel)) ∧
    (∀ id, storeContent times (st.deleteUser id) =
      delete schema (storeContent times st) (whereId "users" (idValue id))) ∧
    (∀ id, storeContent times (st.deleteClient id) =
      delete schema (storeContent times st) (whereId "oauth_clients" (.uuid id))) ∧
    (∀ id, storeContent times (st.deleteAccessToken id) =
      delete schema (storeContent times st) (whereId "oauth_access_tokens" (.text id))) ∧
    ∀ id, storeContent times (st.deleteChallenge id) =
      delete schema (storeContent times st)
        (whereId "oauth_authorization_challenges" (.uuid id)) := by
  refine ⟨fun sel => (admits_storeContent times st).delete schema_cascades, fun id => Eq.symm ?_,
    fun id => Eq.symm ?_, fun id => Eq.symm ?_, fun id => Eq.symm ?_⟩
  · exact Selects.delete_eq ⟨fun u _ => whereId_own idValue_injective rfl,
      fun c _ => whereId_other (by decide) rfl, fun r _ => whereId_other (by decide) rfl,
      fun a _ => whereId_other (by decide) rfl, fun r _ hs => absurd hs.1 (by decide)⟩
  · exact Selects.delete_eq ⟨fun u _ => whereId_other (by decide) rfl,
      fun c _ => whereId_own uuid_injective rfl, fun r _ => whereId_other (by decide) rfl,
      fun a _ => whereId_other (by decide) rfl, fun r _ hs => absurd hs.1 (by decide)⟩
  · exact Selects.delete_eq ⟨fun u _ => whereId_other (by decide) rfl,
      fun c _ => whereId_other (by decide) rfl, fun r _ => whereId_other (by decide) rfl,
      fun a _ => whereId_own text_injective rfl, fun r _ hs => absurd hs.1 (by decide)⟩
  · exact Selects.delete_eq ⟨fun u _ => whereId_other (by decide) rfl,
      fun c _ => whereId_other (by decide) rfl, fun r _ => whereId_own uuid_injective rfl,
      fun a _ => whereId_other (by decide) rfl, fun r _ hs => absurd hs.1 (by decide)⟩

end Admits

end NestTemplate.Databases
