import NestTemplate.Auth.Store
import NestTemplate.Common.Ddl
import NestTemplate.Common.MigrationRunner

/-!
# The migrations and the commands that run them

Models of `databases/migrations/*.ts` and of the commands `migration:run`,
`migration:rollback` and `migration:refresh` of `cli-commands/commands`.

The commands drive umzug, whose log is the table `SequelizeMeta`, and Sequelize,
whose `QueryInterface` sends one statement to PostgreSQL for each call, outside
any transaction. A command can therefore die between any two statements.

* `migrations`: the six migrations in the order of their file names.
* `Packages`, `Packages.Documented`: what the commands call, and what is assumed of it.
* `runMigration`, `rollbackMigration`, `refreshMigrations`: the acts of a command.
* `Event`, `perform`: a command up to where it is interrupted, or rows written by
  the application between two commands.
* `catalogAt`: the catalog after the first `k` migrations.
-/

namespace NestTemplate.Databases

open Common Common.Relational

/-! ## Columns -/

/-- The `DataType`s that the migrations use; `STRING` has 255 characters by default. -/
inductive DataType where
  | BIGINT
  | STRING (length : ℕ)
  | UUID
  | BOOLEAN
  | DATE
  | TEXT
  deriving DecidableEq, Repr

inductive DefaultValue where
  | null
  | boolean (b : Bool)
  /-- `Sequelize.literal`. -/
  | literal (sql : String)
  deriving DecidableEq, Repr

/-- A value of a column. -/
inductive Value where
  | bigint (n : ℤ)
  | text (s : String)
  | uuid (u : Uuid)
  | boolean (b : Bool)
  /-- In microseconds since 1970. -/
  | date (us : ℤ)
  deriving DecidableEq

/-- A text of PostgreSQL, of a number of characters. -/
def isVarchar (length : ℕ) (s : String) : Bool := s.length ≤ length && Store.isText s

/-- A `bigint` of PostgreSQL. -/
def isBigint (n : ℤ) : Bool := -2 ^ 63 ≤ n && n < 2 ^ 63

/-- A `timestamp with time zone` of PostgreSQL, from the year 4713 BC to the year 294276. -/
def isTimestamp (us : ℤ) : Bool := -210866803200000000 ≤ us && us < 9224318016000000000

/-- The values of a type. A `TEXT` of more than a gigabyte, which PostgreSQL refuses, is none that
    a request can send. -/
def DataType.holds : DataType → Value → Bool
  | BIGINT, .bigint n => isBigint n
  | STRING length, .text s => isVarchar length s
  | UUID, .uuid _ => true
  | BOOLEAN, .boolean _ => true
  | DATE, .date us => isTimestamp us
  | TEXT, .text s => Store.isText s
  | _, _ => false

/-- PostgreSQL's `uuid`, `bigint` and character types each compare with their own kind. -/
def DataType.comparable : DataType → DataType → Bool
  | BIGINT, BIGINT | UUID, UUID | BOOLEAN, BOOLEAN | DATE, DATE => true
  | STRING _, STRING _ | STRING _, TEXT | TEXT, STRING _ | TEXT, TEXT => true
  | _, _ => false

/-- `uuid_generate_v4` is a function of `uuid-ossp`. -/
def DefaultValue.extension : DefaultValue → Option String
  | literal sql => if sql = "uuid_generate_v4()" then some "uuid-ossp" else none
  | _ => none

/-- PostgreSQL, as far as the migrations are concerned. -/
def postgres : Dialect DataType DefaultValue where
  comparable := DataType.comparable
  extension := DefaultValue.extension

abbrev Db := Database DataType DefaultValue Value

/-! ## `QueryInterface` -/

/-- `addConstraint` of a foreign key, under the name that Sequelize gives it by default. -/
def addConstraint (table : String) (references : String × String) (field : String)
    (name : Option String) : Statement DataType DefaultValue :=
  .addForeignKey table
    { name := name.getD (table ++ "_" ++ field ++ "_" ++ references.1 ++ "_fk")
      field := field
      table := references.1
      key := references.2
      onDelete := .cascade
      onUpdate := .noAction }

/-- `addIndex`, under the name that Sequelize gives it. -/
def addIndex (table : String) (fields : List String) : Statement DataType DefaultValue :=
  .addIndex table (table ++ "_" ++ "_".intercalate fields) fields

/-- `created_at` and `updated_at`, the same in every migration. -/
def timestamps : List (String × Column DataType DefaultValue) :=
  [("created_at", { type := .DATE, allowNull := false, defaultValue := some (.literal "now()") }),
    ("updated_at", { type := .DATE, allowNull := false, defaultValue := some (.literal "now()") })]

/-! ## The migrations -/

def AddUUIDExtension : Migration (Statement DataType DefaultValue) where
  name := "20210822104600-AddUUIDExtension.ts"
  up := [.createExtension "uuid-ossp"]
  down := []

def usersColumns : List (String × Column DataType DefaultValue) :=
  [("id", { type := .BIGINT, primaryKey := true, allowNull := false, autoIncrement := true }),
    ("email", { type := .STRING 255, allowNull := false, unique := true }),
    ("password", { type := .STRING 255, allowNull := true, defaultValue := some .null })] ++
    timestamps

def CreateUsersTable : Migration (Statement DataType DefaultValue) where
  name := "20210822104619-CreateUsersTable.ts"
  up := [.createTable "users" usersColumns]
  down := [.dropTable "users" false]

def oauthClientsColumns : List (String × Column DataType DefaultValue) :=
  [("id", { type := .UUID, primaryKey := true, allowNull := false,
            defaultValue := some (.literal "uuid_generate_v4()") }),
    ("name", { type := .STRING 255, allowNull := false }),
    ("secret", { type := .STRING 100, allowNull := false }),
    ("is_revoked", { type := .BOOLEAN, allowNull := false, defaultValue := some (.boolean false) }),
    ("grant_type", { type := .STRING 255, allowNull := false })] ++ timestamps

def CreateOauthClientsTable : Migration (Statement DataType DefaultValue) where
  name := "20210830105446-CreateOauthClientsTable.ts"
  up := [.createTable "oauth_clients" oauthClientsColumns]
  down := [.dropTable "oauth_clients" false]

def oauthAccessTokensColumns : List (String × Column DataType DefaultValue) :=
  [("id", { type := .STRING 100, primaryKey := true, allowNull := false }),
    ("expires_at", { type := .DATE, allowNull := true, defaultValue := some .null }),
    ("client_id", { type := .UUID, allowNull := false }),
    ("user_id", { type := .BIGINT, allowNull := true, defaultValue := some .null })] ++ timestamps

def CreateOauthAccessTokensTable : Migration (Statement DataType DefaultValue) where
  name := "20210830105912-CreateOauthAccessTokensTable.ts"
  up :=
    [.createTable "oauth_access_tokens" oauthAccessTokensColumns,
      addConstraint "oauth_access_tokens" ("oauth_clients", "id") "client_id" none,
      addIndex "oauth_access_tokens" ["client_id"],
      addConstraint "oauth_access_tokens" ("users", "id") "user_id" none,
      addIndex "oauth_access_tokens" ["user_id"]]
  down := [.dropTable "oauth_access_tokens" false]

def oauthRefreshTokensColumns : List (String × Column DataType DefaultValue) :=
  [("id", { type := .STRING 100, primaryKey := true, allowNull := false }),
    ("expires_at", { type := .DATE, allowNull := true, defaultValue := some .null }),
    ("access_token_id", { type := .STRING 255, allowNull := false })] ++ timestamps

def CreateOauthRefreshTokensTable : Migration (Statement DataType DefaultValue) where
  name := "20210830113202-CreateOauthRefreshTokensTable.ts"
  up :=
    [.createTable "oauth_refresh_tokens" oauthRefreshTokensColumns,
      addConstraint "oauth_refresh_tokens" ("oauth_access_tokens", "id") "access_token_id" none,
      addIndex "oauth_refresh_tokens" ["access_token_id"]]
  down := [.dropTable "oauth_refresh_tokens" false]

def oauthChallengesColumns : List (String × Column DataType DefaultValue) :=
  [("id", { type := .UUID, defaultValue := some (.literal "uuid_generate_v4()"),
            allowNull := false, primaryKey := true }),
    ("user_id", { type := .BIGINT, allowNull := false }),
    ("client_id", { type := .UUID, allowNull := false }),
    ("challenge", { type := .TEXT, allowNull := false }),
    ("algorithm", { type := .STRING 255, allowNull := false })] ++ timestamps

def CreateOauthChallenges : Migration (Statement DataType DefaultValue) where
  name := "20230915021215-CreateOauthChallenges.ts"
  up :=
    [.createTable "oauth_authorization_challenges" oauthChallengesColumns,
      addConstraint "oauth_authorization_challenges" ("users", "id") "user_id"
        (some "user_id_users_id_fk"),
      addIndex "oauth_authorization_challenges" ["user_id"],
      addConstraint "oauth_authorization_challenges" ("oauth_clients", "id") "client_id"
        (some "client_id_oauth_clients_id_fk"),
      addIndex "oauth_authorization_challenges" ["client_id"]]
  down := [.dropTable "oauth_authorization_challenges" false]

/-- The files of `migrationDirectory`, which umzug sorts by name. -/
def migrations : List (Migration (Statement DataType DefaultValue)) :=
  [AddUUIDExtension, CreateUsersTable, CreateOauthClientsTable, CreateOauthAccessTokensTable,
    CreateOauthRefreshTokensTable, CreateOauthChallenges]

/-! ## The commands -/

/-- The database with umzug's log. A log whose table is missing counts as an empty one: umzug
    creates the table before it reads it. -/
abbrev State := Logged Db

/-- The length of `slice(0, n)` of a list of length `len`. -/
def sliceLength (n : ℤ) (len : ℕ) : ℕ := if 0 ≤ n then n.toNat else len - n.natAbs

/-- The foreign keys of a table that PostgreSQL lists (`none` is `SequelizeMeta`). -/
def dropForeignKeys (s : State) : Option String → List (Act (Statement DataType DefaultValue))
  | some t => (((s.state.tables.lookup t).map (·.foreignKeys)).getD []).map fun fk =>
      .perform (.dropForeignKey t fk.name)
  | none => []

/-- `dropTable(tableName, { cascade: true })`. -/
def dropTable : Option String → Act (Statement DataType DefaultValue)
  | some t => .perform (.dropTable t true)
  | none => .clear

/-- What the commands call: umzug, Sequelize and, behind them, PostgreSQL. -/
structure Packages where
  /-- The acts of umzug's `up()`. -/
  up : List (Migration (Statement DataType DefaultValue)) → State →
    List (Act (Statement DataType DefaultValue))
  /-- The acts of umzug's `down({ step })`. -/
  down : List (Migration (Statement DataType DefaultValue)) → ℤ → State →
    List (Act (Statement DataType DefaultValue))
  /-- The acts of Sequelize's `dropAllTables`, with the tables as PostgreSQL lists them. -/
  dropAllTables : List (Option String) → State → List (Act (Statement DataType DefaultValue))
  /-- What PostgreSQL makes of a statement, unless it refuses it. -/
  query : Db → Statement DataType DefaultValue → Option Db

/-- The packages do what they are documented to do. -/
structure Packages.Documented (packages : Packages) : Prop where
  /-- All pending migrations, in the order of their names. -/
  up : ∀ ms s, packages.up ms s = (Migration.pending ms s).flatMap Migration.upActs
  /-- The executed migrations from the last backwards. -/
  down : ∀ ms step s, packages.down ms step s =
    let executed := (Migration.executed ms s).reverse
    (executed.take (sliceLength step executed.length)).flatMap Migration.downActs
  /-- First every foreign key, then every table, both in the order of the list. -/
  dropAllTables : ∀ order s, packages.dropAllTables order s =
    order.flatMap (dropForeignKeys s) ++ order.map dropTable
  /-- Each statement by itself, as its constraints and the rows allow. -/
  query : ∀ db a, packages.query db a = a.exec postgres db

/-- An act on the database. -/
def act (packages : Packages) : State → Act (Statement DataType DefaultValue) → Option State :=
  Act.exec packages.query

/-- `migration:run`. -/
def runMigration (packages : Packages) (s : State) : List (Act (Statement DataType DefaultValue)) :=
  packages.up migrations s

/-- The argument `till` of `migration:rollback`. The option is declared as a string, so that the
    command line only ever gives a `text`. -/
inductive Till where
  | text (s : String)
  | number (n : ℤ)
  deriving DecidableEq, Repr

/-- `typeof till === 'number' ? till : 1`. -/
def Till.step : Till → ℤ
  | text _ => 1
  | number n => n

/-- `migration:rollback`. -/
def rollbackMigration (packages : Packages) (till : Till) (s : State) :
    List (Act (Statement DataType DefaultValue)) :=
  packages.down migrations till.step s

/-- `migration:refresh`. No migration creates an enumeration, so `dropAllEnums` finds none. -/
def refreshMigrations (packages : Packages) (order : List (Option String)) (s : State) :
    List (Act (Statement DataType DefaultValue)) :=
  let drops := packages.dropAllTables order s
  drops ++ runMigration packages (advance (act packages) s drops).1

/-! ## Runs -/

/-- What can happen to the database. A command with `cut = some n` dies before its act `n`. -/
inductive Event where
  | run (cut : Option ℕ)
  | rollback (till : Till) (cut : Option ℕ)
  | refresh (order : List (Option String)) (cut : Option ℕ)
  /-- The application leaves these rows. -/
  | write (rows : Content Value)

/-- The acts up to an interruption. -/
def upTo {β : Type} : Option ℕ → List β → List β
  | none, acts => acts
  | some n, acts => acts.take n

/-- The state after an event, and whether a command got to its end. -/
def perform (packages : Packages) (s : State) : Event → State × Bool
  | .run cut => advance (act packages) s (upTo cut (runMigration packages s))
  | .rollback till cut => advance (act packages) s (upTo cut (rollbackMigration packages till s))
  | .refresh order cut => advance (act packages) s (upTo cut (refreshMigrations packages order s))
  | .write rows => ({ s with state := { s.state with rows := rows } }, true)

/-- PostgreSQL lists every table once, and takes only rows that satisfy the constraints and have
    values of the columns' types. -/
def Possible (s : State) : Event → Prop
  | .refresh order _ => order.Perm (none :: s.state.tables.names.map some)
  | .write rows => Accepts DataType.holds s.state.tables rows
  | _ => True

def Step (packages : Packages) (s : State) (e : Event) (t : State) : Prop :=
  Possible s e ∧ (perform packages s e).1 = t

/-- The packages, written out from their documentation. -/
def reference : Packages where
  up ms s := (Migration.pending ms s).flatMap Migration.upActs
  down ms step s :=
    let executed := (Migration.executed ms s).reverse
    (executed.take (sliceLength step executed.length)).flatMap Migration.downActs
  dropAllTables order s := order.flatMap (dropForeignKeys s) ++ order.map dropTable
  query db a := a.exec postgres db

theorem reference_documented : reference.Documented where
  up _ _ := rfl
  down _ _ _ := rfl
  dropAllTables _ _ := rfl
  query _ _ := rfl

theorem act_reference : act reference = Act.exec fun db a => a.exec postgres db := rfl

/-- The documentation leaves nothing open that the commands use. -/
theorem Packages.Documented.eq {packages : Packages} (h : packages.Documented) :
    packages = reference := by
  obtain ⟨up, down, dropAllTables, query⟩ := packages
  have hup := funext fun ms => funext (h.up ms)
  have hdown := funext fun ms => funext fun step => funext (h.down ms step)
  have hdrop := funext fun order => funext (h.dropAllTables order)
  have hquery := funext fun db => funext (h.query db)
  dsimp only at hup hdown hdrop hquery
  subst hup hdown hdrop hquery
  rfl

/-- A new database. -/
def fresh : State where
  state := { extensions := [], tables := [], rows := fun _ => [] }
  log := []

/-- The catalog after the first `k` migrations. -/
def catalogAt (k : ℕ) : Option (Catalog DataType DefaultValue) :=
  runAll (fun c (a : Statement DataType DefaultValue) => a.alter postgres c) ⟨[], []⟩
    ((migrations.take k).flatMap (·.up))

end NestTemplate.Databases
