import NestTemplate.Databases.Migrations

/-!
# Runs of the migration commands

The commands of `cli-commands/commands` over whole runs: any order, rows written
in between, and commands that die between two statements. Umzug, Sequelize and
PostgreSQL are any that do what they are documented to do.

* `commands_complete`: commands that are not interrupted never fail, and all
  that they do is move the number of applied migrations.
* `stuck_until_refresh`: once a command has died behind a constraint or an index
  of a migration, no run or rollback ever gets this migration applied.
* `interrupted_run_resumes_iff`: an interrupted `migration:run` can be run again exactly if it
  died before the first constraint or index of the migration under way.
* `first_failure_is_final`: once the run after an interrupted one fails, only a
  refresh helps.
* `refresh_recovers`: `migration:refresh` always leads to the full schema.
-/

namespace NestTemplate.Databases

open Common Common.Relational

/-! ## The catalog after each migration -/

/-- The catalog is the one after the first `k` migrations. No migration removes the extension, so
    it can be there before the first. -/
def IsAt (k : ℕ) (c : Catalog DataType DefaultValue) : Prop :=
  catalogAt k = some c ∨ k = 0 ∧ c = ⟨["uuid-ossp"], []⟩

theorem migrations_names : (migrations.map (·.name)).Nodup := by decide

theorem migrations_adds : ∀ m ∈ migrations, ∀ a ∈ m.up, a.adds = true := by decide

theorem catalogAt_succ {k : ℕ} (hk : k < migrations.length) : catalogAt (k + 1) =
    (catalogAt k).bind fun c => runAll (fun c a => a.alter postgres c) c migrations[k].up := by
  unfold catalogAt
  rw [List.take_add_one, List.getElem?_eq_getElem hk, List.flatMap_append, runAll_append]
  simp

theorem catalogAt_isSome (k : ℕ) : ∃ c, catalogAt k = some c := by
  have hall : (catalogAt migrations.length).isSome = true := by decide
  obtain ⟨c, hc⟩ := Option.isSome_iff_exists.mp hall
  have hsplit : migrations.take migrations.length =
      migrations.take k ++ (migrations.take migrations.length).drop k := by
    rw [List.take_length, List.take_append_drop]
  unfold catalogAt at hc ⊢
  rw [hsplit, List.flatMap_append, runAll_append] at hc
  obtain ⟨m, hm, -⟩ := Option.bind_eq_some_iff.mp hc
  exact ⟨m, hm⟩

/-- The statements of the next migration lead to the next catalog. -/
theorem IsAt.up {k : ℕ} (hk : k < migrations.length) {c : Catalog DataType DefaultValue}
    (h : IsAt k c) :
    ∃ c', runAll (fun c a => a.alter postgres c) c migrations[k].up = some c' ∧ IsAt (k + 1) c' := by
  obtain ⟨c', hc'⟩ := catalogAt_isSome (k + 1)
  cases h with
  | inl h =>
    refine ⟨c', ?_, .inl hc'⟩
    rwa [catalogAt_succ hk, h] at hc'
  | inr h =>
    obtain ⟨rfl, rfl⟩ := h
    exact ⟨⟨["uuid-ossp"], []⟩, rfl, .inl (by decide)⟩

/-- Dropping the table of the last migration leads back. -/
theorem IsAt.down {k : ℕ} (hk : k < migrations.length) {c : Catalog DataType DefaultValue}
    (h : IsAt (k + 1) c) :
    ∃ c', runAll (fun c a => a.alter postgres c) c migrations[k].down = some c' ∧ IsAt k c' := by
  have hc := h.resolve_right (by omega)
  have hback : ∀ k : Fin 6, (catalogAt (k + 1)).bind
      (fun c => runAll (fun c a => a.alter postgres c) c (migrations.get k).down) =
      if k = 0 then some ⟨["uuid-ossp"], []⟩ else catalogAt k := by decide
  have hk := hback ⟨k, hk⟩
  rw [hc, Option.bind_some] at hk
  split at hk
  · rename_i h0
    cases h0
    exact ⟨_, hk, .inr ⟨rfl, rfl⟩⟩
  · obtain ⟨c', hc'⟩ := catalogAt_isSome k
    exact ⟨c', hk.trans hc', .inl hc'⟩

/-- The statements of the next migration are about tables that are not there yet. -/
theorem IsAt.table_notMem {k : ℕ} (hk : k < migrations.length) {c : Catalog DataType DefaultValue}
    (h : IsAt k c) {a : Statement DataType DefaultValue} (ha : a ∈ migrations[k].up) :
    a.table ∉ c.tables.names := by
  have hnew : ∀ k : Fin 6, (catalogAt k).all
      (fun c => (migrations.get k).up.all fun a => a.table ∉ c.tables.names) = true := by decide
  cases h with
  | inl h =>
    have := hnew ⟨k, hk⟩
    rw [h, Option.all_some, List.all_eq_true] at this
    exact of_decide_eq_true (this a ha)
  | inr h =>
    rw [h.2]
    simp [Schema.names]

/-! ## The ladder -/

/-- The first `k` migrations are applied, and the rows satisfy the constraints. -/
def Applied (k : ℕ) (db : Db) : Prop := IsAt k db.toCatalog ∧ Admits db.tables db.rows

theorem runAll_admits {as : List (Statement DataType DefaultValue)} {db db' : Db}
    (h : runAll (fun db a => a.exec postgres db) db as = some db') (hadm : Admits db.tables db.rows) :
    Admits db'.tables db'.rows :=
  runAll_invariant (P := fun db : Db => Admits db.tables db.rows)
    (fun _ _ _ _ hs ht => Statement.exec_admits ht hs) h hadm

/-- The statements of a migration do not meet a row. -/
theorem Applied.up {k : ℕ} (hk : k < migrations.length) {db : Db} (h : Applied k db) :
    ∃ db', runAll (fun db a => a.exec postgres db) db migrations[k].up = some db' ∧
      Applied (k + 1) db' := by
  obtain ⟨c', hc', hat⟩ := h.1.up hk
  have hrows : ∀ a ∈ migrations[k].up, a.fits db.rows ∧ a.clear db.rows = db.rows := by
    intro a ha
    have hadds := migrations_adds _ (List.getElem_mem hk) a ha
    refine ⟨?_, Statement.clear_of_adds hadds _⟩
    have htable := h.1.table_notMem hk ha
    cases a with
    | addForeignKey t fk =>
      have hnone : db.rows t = [] := h.2.rows t htable
      show Refers db.rows t fk
      simp [Refers, hnone]
    | createExtension _ | createTable _ _ | addIndex _ _ _ => trivial
    | dropForeignKey _ _ | dropTable _ _ => cases hadds
  have hrun := Statement.runAll_exec postgres db.toCatalog hrows
  rw [hc'] at hrun
  exact ⟨_, hrun, hat, runAll_admits hrun h.2⟩

theorem Applied.down {k : ℕ} (hk : k < migrations.length) {db : Db} (h : Applied (k + 1) db) :
    ∃ db', runAll (fun db a => a.exec postgres db) db migrations[k].down = some db' ∧
      Applied k db' := by
  obtain ⟨c', hc', hat⟩ := h.1.down hk
  have hfits : ∀ a ∈ migrations[k].down, ∀ rows : Content Value, a.fits rows := by
    intro a ha _
    have hdrops : ∀ m ∈ migrations, ∀ a ∈ m.down, a.adds = false := by decide
    have := hdrops _ (List.getElem_mem hk) a ha
    cases a with
    | dropForeignKey _ _ | dropTable _ _ => trivial
    | createExtension _ | createTable _ _ | addForeignKey _ _ | addIndex _ _ _ => cases this
  obtain ⟨db', hrun, rfl⟩ := Statement.exists_runAll_exec postgres hfits hc'
  exact ⟨db', hrun, hat, runAll_admits hrun h.2⟩

/-- The migrations are a ladder from the empty database to the full schema. -/
theorem ladder : Ladder (fun (db : Db) a => a.exec postgres db) migrations Applied where
  names := migrations_names
  up _ hk _ h := h.up hk

/-- The first `k` migrations are applied and logged. -/
abbrev At (k : ℕ) (s : State) : Prop := AtStep migrations Applied k s

theorem at_fresh : At 0 fresh where
  le := by decide
  state := ⟨.inl rfl, by
    constructor
    · exact fun _ _ => rfl
    all_goals exact nofun⟩
  log := rfl

/-! ## Commands that are not interrupted -/

/-- How many migrations are applied after an event, of `k` before it. -/
def count (k : ℕ) : Event → ℕ
  | .run _ => migrations.length
  | .rollback till _ => k - sliceLength till.step k
  | .refresh _ _ => migrations.length
  | .write _ => k

/-- No command dies. -/
def Event.uninterrupted : Event → Bool
  | .run cut | .rollback _ cut | .refresh _ cut => cut.isNone
  | .write _ => true

theorem mem_of_mem_upTo {β : Type} {cut : Option ℕ} {l : List β} {x : β} (h : x ∈ upTo cut l) :
    x ∈ l := by
  cases cut with
  | none => exact h
  | some n => exact List.mem_of_mem_take h

theorem at_run {k : ℕ} {s : State} (h : At k s) :
    (perform reference s (.run none)).2 = true ∧
      At migrations.length (perform reference s (.run none)).1 := by
  obtain ⟨s', hs', hat⟩ := ladder.advance_upActs h
  have : perform reference s (.run none) = (s', true) := hs'
  rw [this]
  exact ⟨rfl, hat⟩

/-- `migration:run` leaves the rows alone. -/
theorem rows_run (s : State) (cut : Option ℕ) :
    (perform reference s (.run cut)).1.state.rows = s.state.rows := by
  refine advance_invariant (P := fun t : State => t.state.rows = s.state.rows) ?_ rfl
  intro e he t t' ht hact
  obtain ⟨m, hm, he⟩ := List.mem_flatMap.mp (mem_of_mem_upTo he)
  have hm : m ∈ migrations := List.mem_of_mem_filter hm
  cases List.mem_append.mp he with
  | inl he =>
    obtain ⟨a, ha, rfl⟩ := List.mem_map.mp he
    obtain ⟨db, hdb, rfl⟩ := Option.map_eq_some_iff.mp hact
    show db.rows = s.state.rows
    rw [(Statement.exec_eq_some hdb).2.2, Statement.clear_of_adds (migrations_adds m hm a ha), ht]
  | inr he =>
    cases List.mem_singleton.mp he
    simp only [act, Act.exec] at hact
    split at hact
    · cases hact
    · cases hact
      exact ht

theorem at_rollback {k : ℕ} {s : State} (h : At k s) (till : Till) :
    (perform reference s (.rollback till none)).2 = true ∧
      At (k - sliceLength till.step k) (perform reference s (.rollback till none)).1 := by
  have hlen : (Migration.executed migrations s).reverse.length = k := by
    rw [h.executed_eq migrations_names, List.length_reverse, List.length_take]
    exact Nat.min_eq_left h.le
  obtain ⟨s', hs', hat⟩ := ladder.advance_downActs (fun _ hk _ h => h.down hk) h
    (sliceLength till.step k)
  have : perform reference s (.rollback till none) = (s', true) := by
    show advance (act reference) s (rollbackMigration reference till s) = _
    simp only [rollbackMigration, reference, hlen]
    exact hs'
  rw [this]
  exact ⟨rfl, hat⟩

theorem at_write {k : ℕ} {s : State} (h : At k s) {rows : Content Value}
    (hrows : Admits s.state.tables rows) :
    At k { s with state := { s.state with rows := rows } } where
  le := h.le
  state := ⟨h.state.1, hrows⟩
  log := h.log

/-! ## Refreshing -/

/-- What every statement of every command keeps. -/
structure Sound (db : Db) : Prop where
  wellFormed : db.tables.WellFormed
  admits : Admits db.tables db.rows
  extensions : db.extensions = [] ∨ db.extensions = ["uuid-ossp"]

/-- The statements of the commands install no other extension. -/
def installs (a : Statement DataType DefaultValue) : Bool :=
  match a with
  | .createExtension name => name = "uuid-ossp"
  | _ => true

theorem Sound.exec {db db' : Db} (h : Sound db) {a : Statement DataType DefaultValue}
    (ha : installs a = true) (hexec : a.exec postgres db = some db') : Sound db' where
  wellFormed := Statement.exec_wellFormed hexec h.wellFormed
  admits := Statement.exec_admits hexec h.admits
  extensions := by
    obtain ⟨-, halter, -⟩ := Statement.exec_eq_some hexec
    cases a with
    | createExtension name =>
      cases of_decide_eq_true ha
      cases h.extensions with
      | inl e =>
        simp only [Statement.alter, e] at halter
        exact .inr (congrArg Catalog.extensions (Option.some.inj halter)).symm
      | inr e =>
        simp only [Statement.alter, e] at halter
        exact .inr ((congrArg Catalog.extensions (Option.some.inj halter)).symm.trans e)
    | _ =>
      rw [Statement.extensions_of_alter halter (by simp)]
      exact h.extensions

theorem Sound.act {s t : State} (h : Sound s.state) {e : Act (Statement DataType DefaultValue)}
    (he : ∀ a, e = .perform a → installs a = true) (hact : act reference s e = some t) :
    Sound t.state := by
  cases e with
  | perform a =>
    obtain ⟨db, hdb, rfl⟩ := Option.map_eq_some_iff.mp hact
    exact h.exec (he a rfl) hdb
  | log name =>
    simp only [Databases.act, Act.exec] at hact
    split at hact
    · cases hact
    · cases hact
      exact h
  | unlog name =>
    cases hact
    exact h
  | clear =>
    cases hact
    exact h

/-- The first half of `dropAllTables` goes through. -/
theorem runAll_dropForeignKeys {s : State} (hwf : s.state.tables.WellFormed)
    {order : List (Option String)} (hnd : order.Nodup) {u : State}
    (hlook : ∀ t, some t ∈ order → u.state.tables.lookup t = s.state.tables.lookup t) :
    ∃ u', runAll (act reference) u (order.flatMap (dropForeignKeys s)) = some u' ∧
      u'.state.tables.names = u.state.tables.names ∧ u'.log = u.log := by
  induction order generalizing u with
  | nil => exact ⟨u, rfl, rfl, rfl⟩
  | cons o order ih =>
    obtain ⟨hfresh, hrest⟩ := List.nodup_cons.mp hnd
    rw [List.flatMap_cons, runAll_append]
    cases o with
    | none => exact ih hrest fun t ht => hlook t (List.mem_cons_of_mem _ ht)
    | some t =>
      have hone : ∃ v : State, runAll (act reference) u (dropForeignKeys s (some t)) = some v ∧
          v.state.tables.names = u.state.tables.names ∧ v.log = u.log ∧
          ∀ t' ≠ t, v.state.tables.lookup t' = u.state.tables.lookup t' := by
        cases hd : s.state.tables.lookup t with
        | none => exact ⟨u, by simp [dropForeignKeys, hd], rfl, rfl, fun _ _ => rfl⟩
        | some d =>
          have hu := (hlook t List.mem_cons_self).trans hd
          obtain ⟨db', hrun, -, hnames, hother⟩ := Statement.runAll_dropForeignKeys
            postgres hu (hwf.foreignKeys t d (Schema.mem_of_lookup hd))
          refine ⟨{ u with state := db' }, ?_, hnames, rfl, hother⟩
          have hperform : runAll (act reference) u ((d.foreignKeys.map fun fk =>
              Statement.dropForeignKey t fk.name).map .perform) = _ := Act.runAll_perform _
          have hquery : runAll reference.query u.state (d.foreignKeys.map fun fk =>
              Statement.dropForeignKey t fk.name) = some db' := hrun
          rw [hquery, List.map_map] at hperform
          simp only [dropForeignKeys, hd]
          exact hperform
      obtain ⟨v, hv, hnames, hlog, hother⟩ := hone
      obtain ⟨u', hu', hnames', hlog'⟩ := ih (u := v) hrest fun t' ht' => by
        have hne : t' ≠ t := fun e => hfresh (e ▸ ht')
        rw [hother t' hne]
        exact hlook t' (List.mem_cons_of_mem _ ht')
      refine ⟨u', ?_, hnames'.trans hnames, hlog'.trans hlog⟩
      rw [hv]
      exact hu'

/-- The second half of `dropAllTables` leaves nothing of what it lists. -/
theorem runAll_dropTables (order : List (Option String)) (u : State) :
    ∃ u', runAll (act reference) u (order.map dropTable) = some u' ∧
      (∀ t ∈ u'.state.tables.names, t ∈ u.state.tables.names ∧ some t ∉ order) ∧
      u'.log = if none ∈ order then [] else u.log := by
  induction order generalizing u with
  | nil => exact ⟨u, rfl, fun t ht => ⟨ht, by simp⟩, rfl⟩
  | cons o order ih =>
    cases o with
    | none =>
      obtain ⟨u', hu', hnames, hlog⟩ := ih { u with log := [] }
      refine ⟨u', hu', fun t ht => ?_, ?_⟩
      · simpa using hnames t ht
      · simpa using hlog
    | some t =>
      obtain ⟨db', hexec, -, hdrop⟩ : ∃ db', (Statement.dropTable t true).exec postgres u.state =
          some db' ∧ db'.extensions = u.state.extensions ∧
          db'.tables.names = u.state.tables.names.filter (· ≠ t) := Statement.exec_dropTable postgres t
      obtain ⟨u', hu', hnames, hlog⟩ := ih { u with state := db' }
      refine ⟨u', ?_, fun t' ht' => ?_, by simpa using hlog⟩
      · rw [List.map_cons, runAll_cons]
        simp only [act_reference, dropTable, Act.exec, hexec, Option.map_some, Option.bind_some]
        exact hu'
      · obtain ⟨hmem, hout⟩ := hnames t' ht'
        rw [hdrop] at hmem
        obtain ⟨hmem, hne⟩ := List.mem_filter.mp hmem
        refine ⟨hmem, ?_⟩
        simpa [hout] using of_decide_eq_true hne

theorem installs_dropAllTables {s : State} {order : List (Option String)}
    {e : Act (Statement DataType DefaultValue)} (he : e ∈ reference.dropAllTables order s)
    (a : Statement DataType DefaultValue) (ha : e = .perform a) : installs a = true := by
  subst ha
  cases List.mem_append.mp he with
  | inl he =>
    obtain ⟨o, -, he⟩ := List.mem_flatMap.mp he
    cases o with
    | none => cases he
    | some t =>
      obtain ⟨fk, -, e⟩ := List.mem_map.mp he
      cases e
      rfl
  | inr he =>
    obtain ⟨o, -, e⟩ := List.mem_map.mp he
    cases o with
    | none => cases e
    | some t =>
      cases e
      rfl

/-- `dropAllTables` leaves no table and no log, whatever was there. -/
theorem dropAllTables_empties {s : State} (h : Sound s.state) {order : List (Option String)}
    (horder : order.Perm (none :: s.state.tables.names.map some)) :
    ∃ u, runAll (act reference) s (reference.dropAllTables order s) = some u ∧ At 0 u ∧
      ∀ t, u.state.rows t = [] := by
  have hnd : order.Nodup := by
    refine horder.nodup_iff.mpr (List.nodup_cons.mpr ⟨by simp, ?_⟩)
    exact h.wellFormed.names.map fun _ _ e => Option.some.inj e
  obtain ⟨v, hv, hnames, -⟩ :=
    runAll_dropForeignKeys h.wellFormed hnd (u := s) fun _ _ => rfl
  obtain ⟨u, hu, hgone, hlog⟩ := runAll_dropTables order v
  have hrun : runAll (act reference) s (reference.dropAllTables order s) = some u := by
    show runAll (act reference) s (order.flatMap (dropForeignKeys s) ++ order.map dropTable) = _
    rw [runAll_append, hv]
    exact hu
  have hsound : Sound u.state := runAll_invariant (P := fun s : State => Sound s.state)
    (fun e he _ _ hs ht => hs.act (installs_dropAllTables he) ht) hrun h
  have htables : u.state.tables = [] := by
    refine List.eq_nil_iff_forall_not_mem.mpr fun e he => ?_
    obtain ⟨hmem, hout⟩ := hgone e.1 (List.mem_map_of_mem he)
    rw [hnames] at hmem
    exact hout (horder.mem_iff.mpr (List.mem_cons_of_mem _ (List.mem_map_of_mem hmem)))
  refine ⟨u, hrun, ⟨by decide, ⟨?_, hsound.admits⟩, ?_⟩, fun t => hsound.admits.rows t ?_⟩
  · have hcat : u.state.toCatalog = ⟨u.state.extensions, []⟩ := by rw [← htables]
    rw [hcat]
    cases hsound.extensions with
    | inl e => exact .inl (by rw [e]; rfl)
    | inr e => exact .inr ⟨rfl, by rw [e]⟩
  · rw [hlog, if_pos (horder.mem_iff.mpr List.mem_cons_self)]
    rfl
  · simp [htables]

theorem at_refresh {s : State} (h : Sound s.state) {order : List (Option String)}
    (horder : Possible s (.refresh order none)) :
    (perform reference s (.refresh order none)).2 = true ∧
      At migrations.length (perform reference s (.refresh order none)).1 ∧
      ∀ t, (perform reference s (.refresh order none)).1.state.rows t = [] := by
  obtain ⟨u, hu, hat, hrows⟩ := dropAllTables_empties h horder
  have hperform : perform reference s (.refresh order none) = perform reference u (.run none) := by
    show advance (act reference) s (refreshMigrations reference order s) = _
    simp only [refreshMigrations, advance_append, advance_of_runAll hu, if_true]
    rfl
  obtain ⟨hdone, hat'⟩ := at_run hat
  rw [hperform, rows_run]
  exact ⟨hdone, hat', hrows⟩

/-! ## Every event -/

theorem migrations_installs : ∀ m ∈ migrations, ∀ a ∈ m.up ++ m.down, installs a = true := by
  decide

theorem installs_runMigration {s : State} {e : Act (Statement DataType DefaultValue)}
    (he : e ∈ runMigration reference s) (a : Statement DataType DefaultValue) (ha : e = .perform a) :
    installs a = true := by
  subst ha
  obtain ⟨m, hm, he⟩ := List.mem_flatMap.mp he
  have hm : m ∈ migrations := List.mem_of_mem_filter hm
  refine migrations_installs m hm a (List.mem_append_left _ ?_)
  simpa [Migration.upActs] using he

theorem installs_rollbackMigration {s : State} {till : Till}
    {e : Act (Statement DataType DefaultValue)} (he : e ∈ rollbackMigration reference till s)
    (a : Statement DataType DefaultValue) (ha : e = .perform a) : installs a = true := by
  subst ha
  obtain ⟨m, hm, he⟩ := List.mem_flatMap.mp he
  have hm : m ∈ migrations :=
    List.mem_of_mem_filter (List.mem_reverse.mp (List.mem_of_mem_take hm))
  refine migrations_installs m hm a (List.mem_append_right _ ?_)
  simpa [Migration.downActs] using he

/-- Whatever happens, and wherever a command dies. -/
theorem Sound.step {s t : State} (h : Sound s.state) {e : Event} (he : Step reference s e t) :
    Sound t.state := by
  obtain ⟨hpos, rfl⟩ := he
  have hacts : ∀ acts : List (Act (Statement DataType DefaultValue)),
      (∀ e ∈ acts, ∀ a, e = .perform a → installs a = true) → ∀ cut,
      Sound (advance (Databases.act reference) s (upTo cut acts)).1.state := fun acts hacts cut =>
    advance_invariant (P := fun s : State => Sound s.state)
      (fun e he _ _ hs ht => hs.act (hacts e (mem_of_mem_upTo he)) ht) h
  cases e with
  | run cut => exact hacts _ (fun e he => installs_runMigration he) cut
  | rollback till cut => exact hacts _ (fun e he => installs_rollbackMigration he) cut
  | refresh order cut =>
    refine hacts _ (fun e he => ?_) cut
    cases List.mem_append.mp he with
    | inl he => exact installs_dropAllTables he
    | inr he => exact installs_runMigration he
  | write rows => exact ⟨h.wellFormed, hpos.toAdmits, h.extensions⟩

theorem sound_fresh : Sound fresh.state where
  wellFormed := ⟨List.nodup_nil, nofun⟩
  admits := at_fresh.state.2
  extensions := .inl rfl

theorem sound_of_run {es : List Event} {s : State} (h : Run (Step reference) fresh es s) :
    Sound s.state :=
  Run.invariant (P := fun s : State => Sound s.state) (fun _ _ _ hs he => hs.step he) h sound_fresh

/-- An event that is not interrupted. -/
theorem at_step {k : ℕ} {s t : State} (hk : At k s) (hs : Sound s.state) {e : Event}
    (he : Step reference s e t) (hun : e.uninterrupted = true) :
    (perform reference s e).2 = true ∧ At (count k e) t := by
  obtain ⟨hpos, rfl⟩ := he
  cases e with
  | run cut =>
    cases cut with
    | none => exact at_run hk
    | some n => cases hun
  | rollback till cut =>
    cases cut with
    | none => exact at_rollback hk till
    | some n => cases hun
  | refresh order cut =>
    cases cut with
    | none => exact ⟨(at_refresh hs hpos).1, (at_refresh hs hpos).2.1⟩
    | some n => cases hun
  | write rows => exact ⟨rfl, at_write hk hpos.toAdmits⟩

theorem at_of_run {es : List Event} {s t : State} {k : ℕ} (h : Run (Step reference) s es t)
    (hk : At k s) (hs : Sound s.state) (hun : ∀ e ∈ es, e.uninterrupted = true) :
    Along (Step reference) (fun s e => (perform reference s e).2 = true) s es ∧
      At (es.foldl count k) t := by
  induction h generalizing k with
  | nil => exact ⟨Along.of_forall (by simp), hk⟩
  | @cons s m t e es he _ ih =>
    obtain ⟨hdone, hat⟩ := at_step hk hs he (hun e List.mem_cons_self)
    obtain ⟨halong, hat'⟩ := ih hat (hs.step he) fun e he => hun e (List.mem_cons_of_mem _ he)
    refine ⟨Along.cons hdone fun m' hm' => ?_, hat'⟩
    have : m' = m := hm'.2.symm.trans he.2
    exact this ▸ halong

variable {packages : Packages}

/-- From a new database, commands that are not interrupted all get to their end, in any order and
    whatever rows are written in between; the database is then the one with as many migrations
    applied as the commands count. -/
theorem commands_complete (hp : packages.Documented) {es : List Event} {s : State}
    (h : Run (Step packages) fresh es s) (hun : ∀ e ∈ es, e.uninterrupted = true) :
    Along (Step packages) (fun s e => (perform packages s e).2 = true) fresh es ∧
      At (es.foldl count 0) s := by
  obtain rfl := hp.eq
  exact at_of_run h at_fresh sound_fresh hun

theorem commands_complete_sample :
    Along (Step reference) (fun s e => (perform reference s e).2 = true) fresh
        [.run none, .rollback (.text "3") none] ∧
      At 5 (perform reference (perform reference fresh (.run none)).1 (.rollback (.text "3") none)).1 :=
  commands_complete reference_documented (.cons ⟨trivial, rfl⟩ (.cons ⟨trivial, rfl⟩ (.nil _)))
    (by decide)

/-- `migration:refresh` leads to the full schema without rows, wherever commands died before. -/
theorem refresh_recovers (hp : packages.Documented) {es : List Event} {s : State}
    (h : Run (Step packages) fresh es s) {order : List (Option String)}
    (horder : Possible s (.refresh order none)) :
    (perform packages s (.refresh order none)).2 = true ∧
      At migrations.length (perform packages s (.refresh order none)).1 ∧
      ∀ t, (perform packages s (.refresh order none)).1.state.rows t = [] := by
  obtain rfl := hp.eq
  exact at_refresh (sound_of_run h) horder

theorem refresh_recovers_sample :
    let s := (perform reference fresh (.run (some 8))).1
    let order := none :: s.state.tables.names.map some
    (perform reference s (.refresh order none)).2 = true ∧
      At migrations.length (perform reference s (.refresh order none)).1 ∧
      ∀ t, (perform reference s (.refresh order none)).1.state.rows t = [] := by
  have h : Run (Step reference) fresh [.run (some 8)] (perform reference fresh (.run (some 8))).1 :=
    .cons ⟨trivial, rfl⟩ (.nil _)
  exact refresh_recovers reference_documented h (List.Perm.refl _)

/-! ## Commands that are interrupted -/

theorem migrations_keeps : ∀ m ∈ migrations, ∀ m' ∈ migrations, m'.name ≠ m.name →
    ∀ a ∈ m.up, ∀ b ∈ m'.down, Statement.Keeps a.table b := by decide

/-- A constraint or an index of `m` that is there blocks `m`. -/
theorem blocked {m : Migration (Statement DataType DefaultValue)} (hm : m ∈ migrations)
    {a : Statement DataType DefaultValue} (ha : a ∈ m.up) :
    Blocked (fun (db : Db) a => a.exec postgres db) migrations m fun db => a.Done db.tables where
  names := migrations_names
  mem := hm
  fails _ hdone := hdone.runAll_eq_none ha (migrations_adds m hm)
  up m' hm' b hb _ _ hdone hexec :=
    hdone.exec (Statement.keeps_of_adds (migrations_adds m' hm' b hb) _) hexec
  down m' hm' hne b hb _ _ hdone hexec :=
    hdone.exec (migrations_keeps m hm m' hm' hne a ha b hb) hexec

/-- The event is not a `migration:refresh`. -/
def Event.isRefresh : Event → Bool
  | .refresh _ _ => true
  | _ => false

theorem stuck_step {m : Migration (Statement DataType DefaultValue)} (hm : m ∈ migrations)
    {a : Statement DataType DefaultValue} (ha : a ∈ m.up) {s t : State}
    (h : Stuck m (fun db : Db => a.Done db.tables) s) {e : Event} (he : Step reference s e t)
    (hne : e.isRefresh = false) : Stuck m (fun db : Db => a.Done db.tables) t := by
  obtain ⟨-, rfl⟩ := he
  have hb := blocked hm ha
  have htake : ∀ cut (acts : List (Act (Statement DataType DefaultValue))),
      ∃ n, upTo cut acts = acts.take n := by
    intro cut acts
    cases cut with
    | none => exact ⟨acts.length, (List.take_length).symm⟩
    | some n => exact ⟨n, rfl⟩
  cases e with
  | run cut =>
    obtain ⟨n, hn⟩ := htake cut (runMigration reference s)
    show Stuck m _ (advance (act reference) s (upTo cut (runMigration reference s))).1
    rw [hn]
    exact (hb.advance_upActs h n).1
  | rollback till cut =>
    obtain ⟨n, hn⟩ := htake cut (rollbackMigration reference till s)
    show Stuck m _ (advance (act reference) s (upTo cut (rollbackMigration reference till s))).1
    rw [hn]
    refine hb.advance_downActs h (fun m' hm' => ?_) n
    exact List.mem_reverse.mp (List.mem_of_mem_take hm')
  | refresh order cut => cases hne
  | write rows => exact h

/-- Once a constraint or an index of a migration is there without the migration being logged, no
    run or rollback, interrupted or not, ever gets it logged, and every run fails. -/
theorem stuck_until_refresh (hp : packages.Documented)
    {m : Migration (Statement DataType DefaultValue)} (hm : m ∈ migrations)
    {a : Statement DataType DefaultValue} (ha : a ∈ m.up) {s t : State}
    (hdone : a.Done s.state.tables) (hlog : m.name ∉ s.log) {es : List Event}
    (h : Run (Step packages) s es t) (hes : ∀ e ∈ es, e.isRefresh = false) :
    m.name ∉ t.log ∧ (perform packages t (.run none)).2 = false := by
  obtain rfl := hp.eq
  have hstuck : Stuck m (fun db : Db => a.Done db.tables) t :=
    Run.invariant_along (P := fun _ e => e.isRefresh = false)
      (I := Stuck m fun db : Db => a.Done db.tables)
      (fun _ _ _ hs hne he => stuck_step hm ha hs he hne) h
      (Along.of_forall fun e he _ => hes e he) ⟨hdone, hlog⟩
  exact ⟨hstuck.2, ((blocked hm ha).advance_upActs hstuck 0).2⟩

/-- The run died behind the first constraint of the access tokens; a rollback and a run that dies as
    well do not help. -/
theorem stuck_until_refresh_sample :
    let s := (perform reference fresh (.run (some 8))).1
    let t :=
      (perform reference (perform reference s (.rollback (.text "") none)).1 (.run (some 2))).1
    "20210830105912-CreateOauthAccessTokensTable.ts" ∉ t.log ∧
      (perform reference t (.run none)).2 = false := by
  have h : Run (Step reference) (perform reference fresh (.run (some 8))).1
      [.rollback (.text "") none, .run (some 2)] _ :=
    .cons ⟨trivial, rfl⟩ (.cons ⟨trivial, rfl⟩ (.nil _))
  exact stuck_until_refresh reference_documented (m := CreateOauthAccessTokensTable)
    (by simp [migrations])
    (a := addConstraint "oauth_access_tokens" ("oauth_clients", "id") "client_id" none) (by decide)
    ⟨_, rfl, by decide⟩ (by decide) h (by decide)

/-- Creating extensions and tables can be done again, constraints and indexes cannot. -/
theorem restarts : Restarts (fun (db : Db) a => a.exec postgres db) migrations Applied
    fun a => a.repeatable = true where
  starts k hk j st st' _ hst' hagain := by
    have hrep := Statement.runAll_repeat hagain hst'
    conv_lhs => rw [← List.take_append_drop j migrations[k].up, runAll_append, hrep]
    conv_rhs => rw [← List.take_append_drop j migrations[k].up, runAll_append, hst']
  blocks k hk j st st' _ hst' hno := by
    obtain ⟨a, ha, hrep⟩ := hno
    have hadds := migrations_adds _ (List.getElem_mem hk)
    have hdone := Statement.done_of_runAll ha (by simpa using hrep)
      (fun b hb => hadds b (List.mem_of_mem_take hb)) hst'
    exact hdone.runAll_eq_none (List.mem_of_mem_take ha) hadds

/-- A `migration:run` that died before its act `n` can be run again exactly if no constraint or
    index of the migration under way had gone through, and then applies all migrations. -/
theorem interrupted_run_resumes_iff (hp : packages.Documented) {es : List Event} {s : State}
    (h : Run (Step packages) fresh es s) (hun : ∀ e ∈ es, e.uninterrupted = true) (n : ℕ) :
    ((perform packages (perform packages s (.run (some n))).1 (.run none)).2 = true ↔
      ∀ a ∈ Migration.underWay ((runMigration packages s).take n), a.repeatable = true) ∧
    ((perform packages (perform packages s (.run (some n))).1 (.run none)).2 = true →
      At migrations.length
        (perform packages (perform packages s (.run (some n))).1 (.run none)).1) := by
  obtain rfl := hp.eq
  exact ladder.resumes_iff restarts (at_of_run h at_fresh sound_fresh hun).2 n rfl

theorem interrupted_run_resumes_iff_sample :
    let s := (perform reference fresh (.run (some 8))).1
    ((perform reference s (.run none)).2 = true ↔
      ∀ a ∈ Migration.underWay ((runMigration reference fresh).take 8), a.repeatable = true) ∧
    ((perform reference s (.run none)).2 = true →
      At migrations.length (perform reference s (.run none)).1) :=
  interrupted_run_resumes_iff reference_documented (.nil fresh) (by simp) 8

/-- What an interrupted `migration:run` leaves behind when it cannot be started over. -/
theorem stuck_of_interrupted {k : ℕ} {s : State} (hk : At k s) {n : ℕ}
    (hno : ∃ a ∈ Migration.underWay ((runMigration reference s).take n), a.repeatable = false) :
    ∃ m ∈ migrations, ∃ a ∈ m.up,
      Stuck m (fun db : Db => a.Done db.tables) (perform reference s (.run (some n))).1 := by
  obtain ⟨i, as, st, hat, has, hlast, hway, st', hst', hstop⟩ := ladder.stopped hk n
  obtain ⟨a, ha, hrep⟩ := hno
  have ha : a ∈ as := hway ▸ ha
  have hi : i < migrations.length := by
    have := hat.le
    have hne : i ≠ migrations.length := fun e => by
      rw [hlast e] at ha
      cases ha
    omega
  obtain ⟨j, rfl⟩ := has hi
  have hadds := migrations_adds _ (List.getElem_mem hi)
  have hdone := Statement.done_of_runAll ha hrep (fun b hb => hadds b (List.mem_of_mem_take hb)) hst'
  refine ⟨migrations[i], List.getElem_mem hi, a, List.mem_of_mem_take ha, ?_⟩
  show Stuck _ _ (advance (act reference) s ((runMigration reference s).take n)).1
  rw [show (advance (act reference) s ((runMigration reference s).take n)).1 = _ from hstop]
  refine ⟨hdone, hat.notMem_log migrations_names ?_⟩
  exact List.mem_drop_iff_getElem.mpr ⟨0, by simpa using hi, by simp⟩

/-- When a `migration:run` fails after an interrupted one, no later one goes through either:
    neither rollbacks nor further runs help, only `migration:refresh` does. -/
theorem first_failure_is_final (hp : packages.Documented) {es : List Event} {s : State}
    (h : Run (Step packages) fresh es s) (hun : ∀ e ∈ es, e.uninterrupted = true) {n : ℕ}
    (hfail : (perform packages (perform packages s (.run (some n))).1 (.run none)).2 = false)
    {fs : List Event} {t : State}
    (ht : Run (Step packages) (perform packages s (.run (some n))).1 fs t)
    (hfs : ∀ e ∈ fs, e.isRefresh = false) : (perform packages t (.run none)).2 = false := by
  obtain rfl := hp.eq
  have hk := (at_of_run h at_fresh sound_fresh hun).2
  have hno : ∃ a ∈ Migration.underWay ((runMigration reference s).take n), a.repeatable = false := by
    by_contra hall
    have hgo := (ladder.resumes_iff restarts hk n rfl).1.mpr fun a ha => by
      by_contra hrep
      exact hall ⟨a, ha, by simpa using hrep⟩
    rw [show (perform reference (perform reference s (.run (some n))).1 (.run none)).2 = true
      from hgo] at hfail
    cases hfail
  obtain ⟨m, hm, a, ha, hstuck⟩ := stuck_of_interrupted hk hno
  have hstuck' : Stuck m (fun db : Db => a.Done db.tables) t :=
    Run.invariant_along (P := fun _ e => e.isRefresh = false)
      (I := Stuck m fun db : Db => a.Done db.tables)
      (fun _ _ _ hs hne he => stuck_step hm ha hs he hne) ht
      (Along.of_forall fun e he _ => hfs e he) hstuck
  exact ((blocked hm ha).advance_upActs hstuck' 0).2

theorem first_failure_is_final_sample :
    let s := (perform reference fresh (.run (some 8))).1
    (perform reference (perform reference s (.rollback (.text "") none)).1 (.run none)).2 = false := by
  have h : Run (Step reference) (perform reference fresh (.run (some 8))).1
      [.rollback (.text "") none] _ := .cons ⟨trivial, rfl⟩ (.nil _)
  exact first_failure_is_final reference_documented (.nil fresh) (by simp) (by decide) h
    (by decide)

end NestTemplate.Databases
