import Mathlib.Logic.Function.Basic
import NestTemplate.Common.Relational
import NestTemplate.Common.Run

/-!
# Statements that change a schema

A `Database` is a `Catalog` (its extensions and tables) with rows. Every
statement is atomic: it fails and leaves the database alone, or it goes through.

* `Statement.alter`: what a statement does to the catalog, and when it fails.
* `Statement.exec`: with the rows, which a new foreign key has to find in order
  and a dropped table takes along.
* `exec_wellFormed`, `exec_admits`: names stay distinct, and the rows stay in
  order.
* `Statement.Done`: a constraint or an index that is there; it stays until its
  table is dropped (`Done.exec`) and cannot be added again (`Done.exec_eq_none`).
-/

namespace Common.Relational

/-- What depends on the column types and default values of the database. -/
structure Dialect (τ δ : Type) where
  /-- Columns of these types can be compared with each other. -/
  comparable : τ → τ → Bool
  /-- The extension that a default value calls into. -/
  extension : δ → Option String

/-- What the database knows of itself. -/
structure Catalog (τ δ : Type) where
  extensions : List String
  tables : Schema τ δ
  deriving DecidableEq, Repr

structure Database (τ δ ν : Type) extends Catalog τ δ where
  rows : Content ν

inductive Statement (τ δ : Type) where
  /-- `CREATE EXTENSION IF NOT EXISTS`. -/
  | createExtension (name : String)
  /-- `CREATE TABLE IF NOT EXISTS`. -/
  | createTable (name : String) (columns : List (String × Column τ δ))
  /-- `ALTER TABLE ... ADD CONSTRAINT ... FOREIGN KEY`. -/
  | addForeignKey (table : String) (fk : ForeignKey)
  /-- `CREATE INDEX`. -/
  | addIndex (table name : String) (fields : List String)
  /-- `ALTER TABLE ... DROP CONSTRAINT`. -/
  | dropForeignKey (table name : String)
  /-- `DROP TABLE IF EXISTS`, with or without `CASCADE`. -/
  | dropTable (name : String) (cascade : Bool)
  deriving DecidableEq, Repr

variable {τ δ ν : Type}

namespace Schema

def names (s : Schema τ δ) : List String := s.map Prod.fst

/-- Change the definition of the table `t`. -/
def modify (s : Schema τ δ) (t : String) (f : TableDef τ δ → TableDef τ δ) : Schema τ δ :=
  s.map fun e => (e.1, if e.1 = t then f e.2 else e.2)

/-- A constraint of another table refers to `t`. -/
def referenced (s : Schema τ δ) (t : String) : Bool :=
  s.any fun e => e.1 ≠ t && e.2.foreignKeys.any (·.table = t)

/-- Without the table `t` and the constraints that refer to it. -/
def drop (s : Schema τ δ) (t : String) : Schema τ δ :=
  (s.filter (·.1 ≠ t)).map fun e =>
    (e.1, { e.2 with foreignKeys := e.2.foreignKeys.filter (·.table ≠ t) })

variable {s : Schema τ δ} {t : String} {f : TableDef τ δ → TableDef τ δ}

theorem mem_modify {n : String} {d : TableDef τ δ} :
    (n, d) ∈ s.modify t f ↔ ∃ d₀, (n, d₀) ∈ s ∧ d = if n = t then f d₀ else d₀ := by
  unfold modify
  rw [List.mem_map]
  constructor
  · rintro ⟨⟨n', d₀⟩, h, e⟩
    cases e
    exact ⟨d₀, h, rfl⟩
  · rintro ⟨d₀, h, rfl⟩
    exact ⟨(n, d₀), h, rfl⟩

theorem mem_drop {n : String} {d : TableDef τ δ} :
    (n, d) ∈ s.drop t ↔ n ≠ t ∧ ∃ d₀, (n, d₀) ∈ s ∧
      d = { d₀ with foreignKeys := d₀.foreignKeys.filter (·.table ≠ t) } := by
  unfold drop
  rw [List.mem_map]
  constructor
  · rintro ⟨⟨n', d₀⟩, h, e⟩
    obtain ⟨h, hn⟩ := List.mem_filter.mp h
    cases e
    exact ⟨by simpa using hn, d₀, h, rfl⟩
  · rintro ⟨hn, d₀, h, rfl⟩
    exact ⟨(n, d₀), List.mem_filter.mpr ⟨h, by simpa using hn⟩, rfl⟩

@[simp] theorem names_modify : (s.modify t f).names = s.names := by
  unfold names modify
  rw [List.map_map]
  rfl

theorem names_drop : (s.drop t).names = s.names.filter (· ≠ t) := by
  unfold names drop
  rw [List.map_map, List.filter_map]
  rfl

theorem mem_names {n : String} : n ∈ s.names ↔ ∃ d, (n, d) ∈ s := by
  simp [names]

theorem mem_of_lookup {n : String} {d : TableDef τ δ} (h : s.lookup n = some d) : (n, d) ∈ s := by
  induction s with
  | nil => cases h
  | cons e s ih =>
    obtain ⟨n', d'⟩ := e
    rw [List.lookup_cons] at h
    split at h
    · rename_i hn
      cases h
      cases eq_of_beq hn
      exact List.mem_cons_self
    · exact List.mem_cons_of_mem _ (ih h)

/-- Where names are distinct, a table is found under its name. -/
theorem lookup_eq_some (hs : s.names.Nodup) {n : String} {d : TableDef τ δ} (h : (n, d) ∈ s) :
    s.lookup n = some d := by
  induction s with
  | nil => cases h
  | cons e s ih =>
    obtain ⟨n', d'⟩ := e
    obtain ⟨hfresh, hs⟩ := List.nodup_cons.mp hs
    rw [List.lookup_cons]
    cases List.mem_cons.mp h with
    | inl e =>
      cases e
      simp
    | inr h =>
      have hn : (n == n') = false :=
        beq_false_of_ne fun e => hfresh (e ▸ mem_names.mpr ⟨d, h⟩)
      simpa only [hn] using ih hs h

theorem lookup_map (g : String → TableDef τ δ → TableDef τ δ) (n : String) :
    (s.map fun e => (e.1, g e.1 e.2)).lookup n = (s.lookup n).map (g n) := by
  induction s with
  | nil => rfl
  | cons e s ih =>
    obtain ⟨n', d⟩ := e
    rw [List.map_cons, List.lookup_cons, List.lookup_cons]
    by_cases hn : n = n'
    · subst hn
      simp
    · have hne : (n == n') = false := beq_false_of_ne hn
      simpa only [hne] using ih

theorem lookup_modify (n : String) :
    (s.modify t f).lookup n = (s.lookup n).map fun d => if n = t then f d else d :=
  lookup_map (fun n d => if n = t then f d else d) n

theorem lookup_filter {n : String} (hn : n ≠ t) : (s.filter (·.1 ≠ t)).lookup n = s.lookup n := by
  induction s with
  | nil => rfl
  | cons e s ih =>
    obtain ⟨n', d⟩ := e
    rw [List.lookup_cons]
    by_cases hn' : n' = t
    · have hne : (n == n') = false := beq_false_of_ne (hn' ▸ hn)
      rw [List.filter_cons_of_neg (by simpa using hn'), hne]
      exact ih
    · rw [List.filter_cons_of_pos (by simpa using hn'), List.lookup_cons, ih]

theorem lookup_drop {n : String} (hn : n ≠ t) : (s.drop t).lookup n =
    (s.lookup n).map fun d => { d with foreignKeys := d.foreignKeys.filter (·.table ≠ t) } := by
  unfold drop
  rw [lookup_map fun _ d => { d with foreignKeys := d.foreignKeys.filter (·.table ≠ t) },
    lookup_filter hn]

/-- A table that no constraint of another refers to. -/
theorem filter_of_not_referenced (h : s.referenced t = false) {n : String} {d : TableDef τ δ}
    (hd : (n, d) ∈ s) (hn : n ≠ t) : d.foreignKeys.filter (·.table ≠ t) = d.foreignKeys := by
  refine List.filter_eq_self.mpr fun fk hfk => ?_
  unfold referenced at h
  have hd := List.any_eq_false.mp h _ hd
  simp only [ne_eq, hn, not_false_eq_true, decide_true, Bool.true_and, List.any_eq_true,
    decide_eq_true_eq, not_exists, not_and] at hd
  simpa using hd fk hfk

/-- Names of tables, and of the constraints of one table, are distinct. -/
structure WellFormed (s : Schema τ δ) : Prop where
  names : s.names.Nodup
  foreignKeys : ∀ t d, (t, d) ∈ s → (d.foreignKeys.map (·.name)).Nodup

theorem WellFormed.modify (h : WellFormed s)
    (hf : ∀ d, (t, d) ∈ s → ((f d).foreignKeys.map (·.name)).Nodup) : WellFormed (s.modify t f) where
  names := by simpa using h.names
  foreignKeys n d hd := by
    obtain ⟨d₀, hd₀, rfl⟩ := mem_modify.mp hd
    split
    · rename_i hn
      exact hf d₀ (hn ▸ hd₀)
    · exact h.foreignKeys n d₀ hd₀

theorem WellFormed.drop (h : WellFormed s) : WellFormed (s.drop t) where
  names := by
    rw [names_drop]
    exact h.names.filter _
  foreignKeys n d hd := by
    obtain ⟨-, d₀, hd₀, rfl⟩ := mem_drop.mp hd
    exact (List.filter_sublist.map _).nodup (h.foreignKeys n d₀ hd₀)

end Schema

namespace Statement

variable (dialect : Dialect τ δ)

/-- The extensions that the default values of the columns call into are there. -/
def callable (c : Catalog τ δ) (columns : List (String × Column τ δ)) : Bool :=
  columns.all fun col => (col.2.defaultValue.bind dialect.extension).all (· ∈ c.extensions)

/-- `fk` can be a constraint of the table `d` that refers to the table `d'`. -/
def applicable (d d' : TableDef τ δ) (fk : ForeignKey) : Bool :=
  fk.name ∉ d.foreignKeys.map (·.name) &&
    d.columns.any fun col => col.1 = fk.field &&
      d'.columns.any fun col' => col'.1 = fk.key && col'.2.keyed &&
        dialect.comparable col.2.type col'.2.type

/-- The catalog after the statement, unless it fails. -/
def alter (a : Statement τ δ) (c : Catalog τ δ) : Option (Catalog τ δ) :=
  match a with
  | createExtension name =>
    if name ∈ c.extensions then some c else some { c with extensions := c.extensions ++ [name] }
  | createTable name columns =>
    if name ∈ c.tables.names then some c
    else if callable dialect c columns then
      some { c with tables := c.tables ++ [(name, { columns := columns })] }
    else none
  | addForeignKey table fk => do
    let d ← c.tables.lookup table
    let d' ← c.tables.lookup fk.table
    if applicable dialect d d' fk then
      some { c with
        tables := c.tables.modify table fun d => { d with foreignKeys := d.foreignKeys ++ [fk] } }
    else none
  | addIndex table name fields => do
    let d ← c.tables.lookup table
    -- indexes share one name space
    if (c.tables.all fun e => name ∉ e.2.indexes.map Prod.fst) &&
        fields.all (· ∈ d.columns.map Prod.fst) then
      some { c with
        tables := c.tables.modify table fun d => { d with indexes := d.indexes ++ [(name, fields)] } }
    else none
  | dropForeignKey table name => do
    let d ← c.tables.lookup table
    if name ∈ d.foreignKeys.map (·.name) then
      some { c with
        tables := c.tables.modify table fun d =>
          { d with foreignKeys := d.foreignKeys.filter (·.name ≠ name) } }
    else none
  | dropTable name cascade =>
    if name ∉ c.tables.names then some c
    else if cascade || !c.tables.referenced name then
      some { c with tables := c.tables.drop name }
    else none

/-- The rows that are there allow the statement. -/
def fits (a : Statement τ δ) (rows : Content ν) : Prop :=
  match a with
  | addForeignKey table fk => Refers rows table fk
  | _ => True

/-- The rows after the statement. -/
def clear (a : Statement τ δ) (rows : Content ν) : Content ν :=
  match a with
  | dropTable name _ => Function.update rows name []
  | _ => rows

instance [DecidableEq ν] (rows : Content ν) : (a : Statement τ δ) → Decidable (a.fits rows)
  | addForeignKey table fk => inferInstanceAs (Decidable (Refers rows table fk))
  | createExtension _ | createTable _ _ | addIndex _ _ _ | dropForeignKey _ _ | dropTable _ _ =>
    inferInstanceAs (Decidable True)

/-- The database after the statement, unless it fails. -/
def exec [DecidableEq ν] (a : Statement τ δ) (db : Database τ δ ν) : Option (Database τ δ ν) :=
  if a.fits db.rows then
    (a.alter dialect db.toCatalog).map fun c => { toCatalog := c, rows := a.clear db.rows }
  else none

variable {dialect}

theorem exec_of_fits [DecidableEq ν] {a : Statement τ δ} {db : Database τ δ ν} {c : Catalog τ δ}
    (h : a.fits db.rows) (hc : a.alter dialect db.toCatalog = some c) :
    a.exec dialect db = some { toCatalog := c, rows := a.clear db.rows } := by
  rw [exec, if_pos h, hc]
  rfl

/-- What `exec` does when it goes through. -/
theorem exec_eq_some [DecidableEq ν] {a : Statement τ δ} {db db' : Database τ δ ν}
    (h : a.exec dialect db = some db') :
    a.fits db.rows ∧ a.alter dialect db.toCatalog = some db'.toCatalog ∧
      db'.rows = a.clear db.rows := by
  unfold exec at h
  split at h
  · rename_i hfits
    obtain ⟨c, hc, rfl⟩ := Option.map_eq_some_iff.mp h
    exact ⟨hfits, hc, rfl⟩
  · cases h

/-- What a statement that goes through can do to the tables. -/
inductive Alters : Statement τ δ → Schema τ δ → Schema τ δ → Prop
  | same {a : Statement τ δ} {s : Schema τ δ} :
      (∀ name cascade, a = dropTable name cascade → name ∉ s.names) → Alters a s s
  | createTable {name : String} {columns : List (String × Column τ δ)} {s : Schema τ δ} :
      name ∉ s.names → Alters (createTable name columns) s (s ++ [(name, { columns := columns })])
  | addForeignKey {table : String} {fk : ForeignKey} {s : Schema τ δ} {d : TableDef τ δ} :
      s.lookup table = some d → fk.name ∉ d.foreignKeys.map (·.name) →
      Alters (addForeignKey table fk) s
        (s.modify table fun d => { d with foreignKeys := d.foreignKeys ++ [fk] })
  | addIndex {table name : String} {fields : List String} {s : Schema τ δ} :
      (∀ e ∈ s, name ∉ e.2.indexes.map Prod.fst) → Alters (addIndex table name fields) s
        (s.modify table fun d => { d with indexes := d.indexes ++ [(name, fields)] })
  | dropForeignKey {table name : String} {s : Schema τ δ} : Alters (dropForeignKey table name) s
      (s.modify table fun d => { d with foreignKeys := d.foreignKeys.filter (·.name ≠ name) })
  | dropTable {name : String} {cascade : Bool} {s : Schema τ δ} :
      cascade = true ∨ s.referenced name = false →
      Alters (dropTable name cascade) s (s.drop name)

theorem alters_of_alter {a : Statement τ δ} {c c' : Catalog τ δ}
    (h : a.alter dialect c = some c') : Alters a c.tables c'.tables := by
  cases a with
  | createExtension name =>
    simp only [alter] at h
    split at h <;> cases h <;> exact .same nofun
  | createTable name columns =>
    simp only [alter] at h
    split at h
    · cases h
      exact .same nofun
    · rename_i hname
      split at h
      · cases h
        exact .createTable hname
      · cases h
  | addForeignKey table fk =>
    simp only [alter, Option.bind_eq_bind, Option.bind_eq_some_iff] at h
    obtain ⟨d, hd, d', -, h⟩ := h
    split at h
    · rename_i happ
      cases h
      unfold applicable at happ
      exact .addForeignKey hd (of_decide_eq_true (Bool.and_eq_true_iff.mp happ).1)
    · cases h
  | addIndex table name fields =>
    simp only [alter, Option.bind_eq_bind, Option.bind_eq_some_iff] at h
    obtain ⟨d, -, h⟩ := h
    split at h
    · rename_i hok
      cases h
      have hfresh := List.all_eq_true.mp (Bool.and_eq_true_iff.mp hok).1
      exact .addIndex fun e he => of_decide_eq_true (hfresh e he)
    · cases h
  | dropForeignKey table name =>
    simp only [alter, Option.bind_eq_bind, Option.bind_eq_some_iff] at h
    obtain ⟨d, -, h⟩ := h
    split at h
    · cases h
      exact .dropForeignKey
    · cases h
  | dropTable name cascade =>
    simp only [alter] at h
    split at h
    · rename_i hname
      cases h
      refine .same fun n b e => ?_
      cases e
      exact hname
    · split at h
      · rename_i hok
        cases h
        exact .dropTable (by simpa using hok)
      · cases h

/-- Names stay distinct. -/
theorem Alters.wellFormed {a : Statement τ δ} {s s' : Schema τ δ} (h : Alters a s s')
    (hs : s.WellFormed) : s'.WellFormed := by
  cases h with
  | same => exact hs
  | @createTable name columns _ hname =>
    constructor
    · simpa [Schema.names] using hs.names.concat hname
    · intro t d hd
      cases List.mem_append.mp hd with
      | inl hd => exact hs.foreignKeys t d hd
      | inr hd =>
        cases List.mem_singleton.mp hd
        exact List.nodup_nil
  | @addForeignKey table fk _ d hlook hfresh =>
    refine hs.modify fun d₀ hd₀ => ?_
    rw [Schema.lookup_eq_some hs.names hd₀] at hlook
    cases hlook
    simpa using (hs.foreignKeys _ _ hd₀).concat hfresh
  | addIndex => exact hs.modify fun d hd => hs.foreignKeys _ d hd
  | dropForeignKey =>
    exact hs.modify fun d hd => (List.filter_sublist.map _).nodup (hs.foreignKeys _ d hd)
  | dropTable => exact hs.drop

theorem exec_wellFormed [DecidableEq ν] {a : Statement τ δ} {db db' : Database τ δ ν}
    (h : a.exec dialect db = some db') (hs : db.tables.WellFormed) : db'.tables.WellFormed :=
  (alters_of_alter (exec_eq_some h).2.1).wellFormed hs

/-- Changing a table's foreign keys and indexes, the new ones in order, keeps the constraints. -/
theorem admits_modify {s : Schema τ δ} {c : Content ν} (h : Admits s c) {t : String}
    {f : TableDef τ δ → TableDef τ δ} (hcols : ∀ d, (f d).columns = d.columns)
    (hfk : ∀ d, (t, d) ∈ s → ∀ fk ∈ (f d).foreignKeys, Refers c t fk) :
    Admits (s.modify t f) c := by
  have hcolumns : ∀ n d, (n, d) ∈ s.modify t f →
      ∃ d₀, (n, d₀) ∈ s ∧ d.columns = d₀.columns := by
    intro n d hd
    obtain ⟨d₀, hd₀, rfl⟩ := Schema.mem_modify.mp hd
    refine ⟨d₀, hd₀, ?_⟩
    split
    · exact hcols d₀
    · rfl
  constructor
  · intro n hn
    rw [← Schema.names, Schema.names_modify] at hn
    exact h.rows n hn
  · intro n d hd
    obtain ⟨d₀, hd₀, e⟩ := hcolumns n d hd
    rw [e]
    exact h.columns n d₀ hd₀
  · intro n d hd
    obtain ⟨d₀, hd₀, e⟩ := hcolumns n d hd
    rw [e]
    exact h.notNull n d₀ hd₀
  · intro n d hd
    obtain ⟨d₀, hd₀, e⟩ := hcolumns n d hd
    rw [e]
    exact h.unique n d₀ hd₀
  · intro n d hd fk hfk'
    obtain ⟨d₀, hd₀, rfl⟩ := Schema.mem_modify.mp hd
    split at hfk'
    · rename_i hn
      cases hn
      exact hfk d₀ hd₀ fk hfk'
    · exact h.foreignKeys n d₀ hd₀ fk hfk'

/-- An empty new table. -/
theorem admits_concat {s : Schema τ δ} {c : Content ν} (h : Admits s c) {t : String}
    (ht : t ∉ s.names) (columns : List (String × Column τ δ)) :
    Admits (s ++ [(t, { columns := columns })]) c := by
  have hrows : c t = [] := h.rows t ht
  have hmem : ∀ n d, (n, d) ∈ s ++ [(t, { columns := columns })] →
      (n, d) ∈ s ∨ (n = t ∧ d.foreignKeys = []) := by
    intro n d hd
    cases List.mem_append.mp hd with
    | inl hd => exact .inl hd
    | inr hd =>
      cases List.mem_singleton.mp hd
      exact .inr ⟨rfl, rfl⟩
  constructor
  · intro n hn
    exact h.rows n fun hn' => hn (by simp [hn'])
  · intro n d hd
    cases hmem n d hd with
    | inl hd => exact h.columns n d hd
    | inr hd => simp [hd.1, hrows]
  · intro n d hd
    cases hmem n d hd with
    | inl hd => exact h.notNull n d hd
    | inr hd => simp [hd.1, hrows]
  · intro n d hd
    cases hmem n d hd with
    | inl hd => exact h.unique n d hd
    | inr hd => simp [hd.1, hrows]
  · intro n d hd
    cases hmem n d hd with
    | inl hd => exact h.foreignKeys n d hd
    | inr hd => simp [hd.2]

/-- A table that goes with its rows and the constraints that refer to it. -/
theorem admits_drop {s : Schema τ δ} {c : Content ν} (h : Admits s c) (t : String) :
    Admits (s.drop t) (Function.update c t []) := by
  constructor
  · intro n hn
    by_cases hnt : n = t
    · simp [hnt]
    · rw [Function.update_of_ne hnt]
      rw [← Schema.names, Schema.names_drop] at hn
      exact h.rows n fun hn' => hn (List.mem_filter.mpr ⟨hn', by simpa using hnt⟩)
  · intro n d hd
    obtain ⟨hnt, d₀, hd₀, rfl⟩ := Schema.mem_drop.mp hd
    rw [Function.update_of_ne hnt]
    exact h.columns n d₀ hd₀
  · intro n d hd
    obtain ⟨hnt, d₀, hd₀, rfl⟩ := Schema.mem_drop.mp hd
    rw [Function.update_of_ne hnt]
    exact h.notNull n d₀ hd₀
  · intro n d hd
    obtain ⟨hnt, d₀, hd₀, rfl⟩ := Schema.mem_drop.mp hd
    rw [Function.update_of_ne hnt]
    exact h.unique n d₀ hd₀
  · intro n d hd fk hfk
    obtain ⟨hnt, d₀, hd₀, rfl⟩ := Schema.mem_drop.mp hd
    obtain ⟨hfk, hft⟩ := List.mem_filter.mp hfk
    unfold Refers
    rw [Function.update_of_ne hnt, Function.update_of_ne (by simpa using hft)]
    exact h.foreignKeys n d₀ hd₀ fk hfk

/-- No statement leaves rows behind that break a constraint. -/
theorem exec_admits [DecidableEq ν] {a : Statement τ δ} {db db' : Database τ δ ν}
    (h : a.exec dialect db = some db') (hadm : Admits db.tables db.rows) :
    Admits db'.tables db'.rows := by
  obtain ⟨hfits, halter, hrows⟩ := exec_eq_some h
  rw [hrows]
  have haltered := alters_of_alter halter
  generalize db'.tables = s' at haltered ⊢
  cases haltered with
  | same hdrop =>
    have : a.clear db.rows = db.rows := by
      cases a with
      | dropTable name cascade =>
        have hnone : db.rows name = [] := hadm.rows name (hdrop name cascade rfl)
        show Function.update db.rows name [] = db.rows
        rw [← hnone, Function.update_eq_self]
      | _ => rfl
    rwa [this]
  | createTable hname => exact admits_concat hadm hname _
  | @addForeignKey table fk =>
    refine admits_modify hadm (fun _ => rfl) fun d hd fk' hfk' => ?_
    cases List.mem_append.mp hfk' with
    | inl hfk' => exact hadm.foreignKeys _ d hd fk' hfk'
    | inr hfk' =>
      cases List.mem_singleton.mp hfk'
      exact hfits
  | addIndex => exact admits_modify hadm (fun _ => rfl) fun d hd => hadm.foreignKeys _ d hd
  | dropForeignKey =>
    exact admits_modify hadm (fun _ => rfl) fun d hd fk hfk =>
      hadm.foreignKeys _ d hd fk (List.mem_of_mem_filter hfk)
  | dropTable => exact admits_drop hadm _

/-! ### What cannot be done twice -/

/-- The constraint or the index is there. -/
def Done (a : Statement τ δ) (s : Schema τ δ) : Prop :=
  match a with
  | addForeignKey table fk =>
    ∃ d, s.lookup table = some d ∧ fk.name ∈ d.foreignKeys.map (·.name)
  | addIndex table name _ => ∃ d, s.lookup table = some d ∧ name ∈ d.indexes.map Prod.fst
  | _ => False

/-- The table whose constraint or index it is. -/
def table (a : Statement τ δ) : String :=
  match a with
  | createExtension name => name
  | createTable name _ => name
  | addForeignKey table _ => table
  | addIndex table _ _ => table
  | dropForeignKey table _ => table
  | dropTable name _ => name

/-- The statement takes nothing away from the table `t`. -/
def Keeps (t : String) (a : Statement τ δ) : Prop :=
  match a with
  | dropForeignKey _ _ => False
  | dropTable name cascade => name ≠ t ∧ cascade = false
  | _ => True

instance (t : String) : (a : Statement τ δ) → Decidable (Keeps t a)
  | dropForeignKey _ _ => inferInstanceAs (Decidable False)
  | dropTable name cascade => inferInstanceAs (Decidable (name ≠ t ∧ cascade = false))
  | createExtension _ | createTable _ _ | addForeignKey _ _ | addIndex _ _ _ =>
    inferInstanceAs (Decidable True)

/-- The table is still there, with the constraints and indexes it had. -/
theorem Alters.lookup {a : Statement τ δ} {s s' : Schema τ δ} (h : Alters a s s') {t : String}
    (hk : Keeps t a) {d : TableDef τ δ} (hd : s.lookup t = some d) :
    ∃ d', s'.lookup t = some d' ∧
      (∀ n ∈ d.foreignKeys.map (·.name), n ∈ d'.foreignKeys.map (·.name)) ∧
      ∀ n ∈ d.indexes.map Prod.fst, n ∈ d'.indexes.map Prod.fst := by
  cases h with
  | same => exact ⟨d, hd, fun _ => id, fun _ => id⟩
  | createTable hname =>
    refine ⟨d, ?_, fun _ => id, fun _ => id⟩
    rw [List.lookup_append, hd]
    rfl
  | addForeignKey =>
    rw [Schema.lookup_modify, hd]
    refine ⟨_, rfl, ?_, ?_⟩
    · intro n hn
      split
      · rw [List.map_append]
        exact List.mem_append_left _ hn
      · exact hn
    · intro n hn
      split <;> exact hn
  | addIndex =>
    rw [Schema.lookup_modify, hd]
    refine ⟨_, rfl, ?_, ?_⟩
    · intro n hn
      split <;> exact hn
    · intro n hn
      split
      · rw [List.map_append]
        exact List.mem_append_left _ hn
      · exact hn
  | dropForeignKey => exact hk.elim
  | dropTable hdrop =>
    obtain ⟨hne, hcas⟩ := hk
    have href := hdrop.resolve_left (by simp [hcas])
    have hkeep := Schema.filter_of_not_referenced href (Schema.mem_of_lookup hd) (Ne.symm hne)
    rw [Schema.lookup_drop (Ne.symm hne), hd, Option.map_some, hkeep]
    exact ⟨_, rfl, fun _ => id, fun _ => id⟩

/-- What is there stays there until its table is dropped. -/
theorem Done.exec [DecidableEq ν] {a b : Statement τ δ} {db db' : Database τ δ ν}
    (h : a.Done db.tables) (hk : Keeps a.table b) (hb : b.exec dialect db = some db') :
    a.Done db'.tables := by
  have halters := alters_of_alter (exec_eq_some hb).2.1
  cases a with
  | addForeignKey table fk =>
    obtain ⟨d, hd, hn⟩ := h
    obtain ⟨d', hd', hfk, -⟩ := halters.lookup hk hd
    exact ⟨d', hd', hfk _ hn⟩
  | addIndex table name fields =>
    obtain ⟨d, hd, hn⟩ := h
    obtain ⟨d', hd', -, hidx⟩ := halters.lookup hk hd
    exact ⟨d', hd', hidx _ hn⟩
  | createExtension _ | createTable _ _ | dropForeignKey _ _ | dropTable _ _ => exact h.elim

/-- What is there cannot be added again. -/
theorem Done.exec_eq_none [DecidableEq ν] {a : Statement τ δ} {db : Database τ δ ν}
    (h : a.Done db.tables) : a.exec dialect db = none := by
  unfold Statement.exec
  split
  swap
  · rfl
  rw [Option.map_eq_none_iff]
  cases a with
  | addForeignKey table fk =>
    obtain ⟨d, hd, hn⟩ := h
    have : ∀ d', applicable dialect d d' fk = false := by
      intro d'
      simp [applicable, hn]
    simp [alter, hd, this]
  | addIndex table name fields =>
    obtain ⟨d, hd, hn⟩ := h
    have : (db.tables.all fun e => name ∉ e.2.indexes.map Prod.fst) = false := by
      rw [List.all_eq_false]
      exact ⟨(table, d), Schema.mem_of_lookup hd, by simpa using hn⟩
    simp only [alter, hd, this, Bool.false_and, Option.bind_eq_bind, Option.bind_some]
    rfl
  | createExtension _ | createTable _ _ | dropForeignKey _ _ | dropTable _ _ => exact h.elim

/-- A constraint or an index that was added is there. -/
theorem done_of_exec [DecidableEq ν] {a : Statement τ δ} {db db' : Database τ δ ν}
    (h : a.exec dialect db = some db')
    (ha : (∃ t fk, a = addForeignKey t fk) ∨ ∃ t n fs, a = addIndex t n fs) :
    a.Done db'.tables := by
  obtain ⟨-, halter, -⟩ := exec_eq_some h
  rcases ha with ⟨t, fk, rfl⟩ | ⟨t, n, fs, rfl⟩
  · simp only [alter, Option.bind_eq_bind, Option.bind_eq_some_iff] at halter
    obtain ⟨d, hd, d', -, halter⟩ := halter
    split at halter
    · rw [← congrArg Catalog.tables (Option.some.inj halter)]
      refine ⟨{ d with foreignKeys := d.foreignKeys ++ [fk] }, ?_, by simp⟩
      rw [Schema.lookup_modify, hd]
      simp
    · cases halter
  · simp only [alter, Option.bind_eq_bind, Option.bind_eq_some_iff] at halter
    obtain ⟨d, hd, halter⟩ := halter
    split at halter
    · rw [← congrArg Catalog.tables (Option.some.inj halter)]
      refine ⟨{ d with indexes := d.indexes ++ [(n, fs)] }, ?_, by simp⟩
      rw [Schema.lookup_modify, hd]
      simp
    · cases halter

/-! ### Statements that only add -/

/-- The statement takes nothing away. -/
def adds (a : Statement τ δ) : Bool :=
  match a with
  | dropForeignKey _ _ | dropTable _ _ => false
  | _ => true

/-- The statement does nothing the second time. -/
def repeatable (a : Statement τ δ) : Bool :=
  match a with
  | createExtension _ | createTable _ _ => true
  | _ => false

theorem keeps_of_adds {a : Statement τ δ} (h : a.adds = true) (t : String) : Keeps t a := by
  cases a with
  | dropForeignKey _ _ | dropTable _ _ => cases h
  | createExtension _ | createTable _ _ | addForeignKey _ _ | addIndex _ _ _ => trivial

theorem clear_of_adds {a : Statement τ δ} (h : a.adds = true) (rows : Content ν) :
    a.clear rows = rows := by
  cases a with
  | dropForeignKey _ _ | dropTable _ _ => cases h
  | createExtension _ | createTable _ _ | addForeignKey _ _ | addIndex _ _ _ => rfl

variable [DecidableEq ν] {as : List (Statement τ δ)} {db db' : Database τ δ ν}

variable (dialect) in
/-- The statements with the rows, where no row is in their way and none goes. -/
theorem runAll_exec (c : Catalog τ δ) {rows : Content ν}
    (h : ∀ a ∈ as, a.fits rows ∧ a.clear rows = rows) :
    runAll (fun db a => a.exec dialect db) ({ toCatalog := c, rows := rows } : Database τ δ ν) as =
      (runAll (fun c a => a.alter dialect c) c as).map fun c => { toCatalog := c, rows := rows } := by
  induction as generalizing c with
  | nil => rfl
  | cons a as ih =>
    obtain ⟨hfits, hclear⟩ := h a List.mem_cons_self
    have hexec : a.exec dialect ({ toCatalog := c, rows := rows } : Database τ δ ν) =
        (a.alter dialect c).map fun c => { toCatalog := c, rows := rows } := by
      rw [Statement.exec, if_pos hfits, hclear]
    rw [runAll_cons, runAll_cons, hexec]
    cases a.alter dialect c with
    | none => rfl
    | some c' => exact ih c' fun a ha => h a (List.mem_cons_of_mem _ ha)

variable (dialect) in
/-- Statements that no row can be in the way of. -/
theorem exists_runAll_exec {c : Catalog τ δ} (h : ∀ a ∈ as, ∀ rows : Content ν, a.fits rows)
    (hc : runAll (fun c a => a.alter dialect c) db.toCatalog as = some c) :
    ∃ db', runAll (fun db a => a.exec dialect db) db as = some db' ∧ db'.toCatalog = c := by
  induction as generalizing db with
  | nil => exact ⟨db, rfl, Option.some.inj hc⟩
  | cons a as ih =>
    obtain ⟨m, hm, hc⟩ := Option.bind_eq_some_iff.mp hc
    obtain ⟨db', hdb', e⟩ := @ih { toCatalog := m, rows := a.clear db.rows }
      (fun a ha => h a (List.mem_cons_of_mem _ ha)) hc
    refine ⟨db', ?_, e⟩
    rw [runAll_cons, exec_of_fits (h a List.mem_cons_self _) hm]
    exact hdb'

/-- A constraint or an index that is there lets no list of statements through that adds it. -/
theorem Done.runAll_eq_none {a : Statement τ δ} (h : a.Done db.tables) (ha : a ∈ as)
    (has : ∀ b ∈ as, b.adds = true) : runAll (fun db a => a.exec dialect db) db as = none := by
  induction as generalizing db with
  | nil => cases ha
  | cons b as ih =>
    rw [runAll_cons]
    cases hb : b.exec dialect db with
    | none => rfl
    | some m =>
      have hm : a.Done m.tables := h.exec (keeps_of_adds (has b List.mem_cons_self) _) hb
      refine ih hm ((List.mem_cons.mp ha).resolve_left fun e => ?_)
        fun b hb => has b (List.mem_cons_of_mem _ hb)
      rw [← e, h.exec_eq_none] at hb
      cases hb

/-- What was added is there at the end. -/
theorem done_of_runAll {a : Statement τ δ} (ha : a ∈ as) (hadd : a.repeatable = false)
    (has : ∀ b ∈ as, b.adds = true)
    (h : runAll (fun db a => a.exec dialect db) db as = some db') : a.Done db'.tables := by
  induction as generalizing db with
  | nil => cases ha
  | cons b as ih =>
    obtain ⟨m, hm, hrest⟩ := Option.bind_eq_some_iff.mp h
    have has' : ∀ b ∈ as, b.adds = true := fun b hb => has b (List.mem_cons_of_mem _ hb)
    cases List.mem_cons.mp ha with
    | inl e =>
      subst e
      have hkind : (∃ t fk, a = addForeignKey t fk) ∨ ∃ t n fs, a = addIndex t n fs := by
        have := has a List.mem_cons_self
        cases a with
        | addForeignKey t fk => exact .inl ⟨t, fk, rfl⟩
        | addIndex t n fs => exact .inr ⟨t, n, fs, rfl⟩
        | createExtension _ | createTable _ _ => cases hadd
        | dropForeignKey _ _ | dropTable _ _ => cases this
      exact runAll_invariant (P := fun db : Database τ δ ν => a.Done db.tables)
        (fun b hb _ _ hdone hex => hdone.exec (keeps_of_adds (has' b hb) _) hex) hrest
        (done_of_exec hm hkind)
    | inr ha => exact ih ha has' hrest

/-- The extension or the table is there. -/
def Created (a : Statement τ δ) (c : Catalog τ δ) : Prop :=
  match a with
  | createExtension name => name ∈ c.extensions
  | createTable name _ => name ∈ c.tables.names
  | _ => False

/-- What is there is not created again. -/
theorem Created.exec_eq {a : Statement τ δ} (h : a.Created db.toCatalog) :
    a.exec dialect db = some db := by
  cases a with
  | createExtension name =>
    have : name ∈ db.extensions := h
    simp [Statement.exec, fits, alter, clear, this]
  | createTable name _ =>
    have : name ∈ db.tables.names := h
    simp [Statement.exec, fits, alter, clear, this]
  | addForeignKey _ _ | addIndex _ _ _ | dropForeignKey _ _ | dropTable _ _ => exact h.elim

/-- No other statement installs extensions. -/
theorem extensions_of_alter {a : Statement τ δ} {c c' : Catalog τ δ}
    (h : a.alter dialect c = some c') (ha : ∀ name, a ≠ createExtension name) :
    c'.extensions = c.extensions := by
  cases a with
  | createExtension name => exact absurd rfl (ha name)
  | createTable _ _ | dropTable _ _ =>
    simp only [alter] at h
    grind
  | addForeignKey _ _ | addIndex _ _ _ | dropForeignKey _ _ =>
    simp only [alter, Option.bind_eq_bind, Option.bind_eq_some_iff] at h
    grind

/-- Names of extensions and tables only become more. -/
theorem names_subset_of_adds {a : Statement τ δ} {c c' : Catalog τ δ} (ha : a.adds = true)
    (h : a.alter dialect c = some c') :
    c.extensions ⊆ c'.extensions ∧ c.tables.names ⊆ c'.tables.names := by
  constructor
  · cases a with
    | createExtension name =>
      simp only [alter] at h
      split at h
      · cases h
        exact fun _ => id
      · cases h
        exact List.subset_append_left _ _
    | _ =>
      rw [extensions_of_alter h nofun]
      exact fun _ => id
  · have halters := alters_of_alter h
    generalize c'.tables = s' at halters ⊢
    cases halters with
    | same => exact fun _ => id
    | createTable =>
      rw [Schema.names, Schema.names, List.map_append]
      exact List.subset_append_left _ _
    | addForeignKey | addIndex =>
      rw [Schema.names_modify]
      exact fun _ => id
    | dropForeignKey | dropTable => cases ha

theorem adds_of_repeatable {a : Statement τ δ} (h : a.repeatable = true) : a.adds = true := by
  cases a with
  | createExtension _ | createTable _ _ => rfl
  | addForeignKey _ _ | addIndex _ _ _ | dropForeignKey _ _ | dropTable _ _ => cases h

theorem created_of_alter {a : Statement τ δ} (ha : a.repeatable = true) {c c' : Catalog τ δ}
    (h : a.alter dialect c = some c') : a.Created c' := by
  cases a with
  | createExtension name =>
    simp only [alter] at h
    split at h
    · rename_i hname
      cases h
      exact hname
    · cases h
      show name ∈ c.extensions ++ [name]
      simp
  | createTable name columns =>
    simp only [alter] at h
    split at h
    · rename_i hname
      cases h
      exact hname
    · split at h
      · cases h
        show name ∈ Schema.names (c.tables ++ [(name, { columns := columns })])
        simp [Schema.names]
      · cases h
  | addForeignKey _ _ | addIndex _ _ _ | dropForeignKey _ _ | dropTable _ _ => cases ha

theorem Created.alter {a b : Statement τ δ} {c c' : Catalog τ δ} (h : a.Created c)
    (hb : b.adds = true) (hc : b.alter dialect c = some c') : a.Created c' := by
  obtain ⟨hext, hnames⟩ := names_subset_of_adds hb hc
  cases a with
  | createExtension name => exact hext h
  | createTable name _ => exact hnames h
  | addForeignKey _ _ | addIndex _ _ _ | dropForeignKey _ _ | dropTable _ _ => exact h.elim

/-- Statements that went through and can be repeated do nothing the second time. -/
theorem runAll_repeat (has : ∀ a ∈ as, a.repeatable = true)
    (h : runAll (fun db a => a.exec dialect db) db as = some db') :
    runAll (fun db a => a.exec dialect db) db' as = some db' := by
  have hcreated : ∀ a ∈ as, a.Created db'.toCatalog := by
    induction as generalizing db with
    | nil => nofun
    | cons b as ih =>
      have has' : ∀ a ∈ as, a.repeatable = true := fun a ha => has a (List.mem_cons_of_mem _ ha)
      obtain ⟨m, hm, hrest⟩ := Option.bind_eq_some_iff.mp h
      intro a ha
      cases List.mem_cons.mp ha with
      | inl e =>
        subst e
        refine runAll_invariant (P := fun db : Database τ δ ν => a.Created db.toCatalog) ?_ hrest
          (created_of_alter (has a List.mem_cons_self) (exec_eq_some hm).2.1)
        intro b hb s t hs ht
        exact hs.alter (adds_of_repeatable (has' b hb)) (exec_eq_some ht).2.1
      | inr ha => exact ih has' hrest a ha
  clear h has
  induction as with
  | nil => rfl
  | cons a as ih =>
    rw [runAll_cons, (hcreated a List.mem_cons_self).exec_eq]
    exact ih fun a ha => hcreated a (List.mem_cons_of_mem _ ha)

/-! ### Statements that drop everything -/

variable (dialect) in
theorem exec_dropForeignKey {t n : String} {d : TableDef τ δ} (hd : db.tables.lookup t = some d)
    (hn : n ∈ d.foreignKeys.map (·.name)) :
    (dropForeignKey t n).exec dialect db = some { db with
      tables := db.tables.modify t fun d =>
        { d with foreignKeys := d.foreignKeys.filter (·.name ≠ n) } } := by
  have halter : (dropForeignKey t n).alter dialect db.toCatalog = some { db.toCatalog with
      tables := db.tables.modify t fun d =>
        { d with foreignKeys := d.foreignKeys.filter (·.name ≠ n) } } := by
    simp only [alter, hd, Option.bind_eq_bind, Option.bind_some]
    exact if_pos hn
  exact exec_of_fits trivial halter

variable (dialect) in
/-- Every foreign key of a table can be dropped, one after the other. -/
theorem runAll_dropForeignKeys {t : String} {d : TableDef τ δ} (hd : db.tables.lookup t = some d)
    (hnd : (d.foreignKeys.map (·.name)).Nodup) :
    ∃ db', runAll (fun db a => a.exec dialect db) db
        (d.foreignKeys.map fun fk => dropForeignKey t fk.name) = some db' ∧
      db'.extensions = db.extensions ∧ db'.tables.names = db.tables.names ∧
      ∀ t' ≠ t, db'.tables.lookup t' = db.tables.lookup t' := by
  obtain ⟨columns, fks, indexes⟩ := d
  induction fks generalizing db with
  | nil => exact ⟨db, rfl, rfl, rfl, fun _ _ => rfl⟩
  | cons fk fks ih =>
    rw [List.map_cons, List.nodup_cons] at hnd
    have hrest : (fk :: fks).filter (·.name ≠ fk.name) = fks := by
      rw [List.filter_cons_of_neg (by simp), List.filter_eq_self]
      intro fk' hfk'
      have : fk'.name ≠ fk.name := fun e => hnd.1 (e ▸ List.mem_map_of_mem hfk')
      simpa using this
    have hexec := exec_dropForeignKey dialect hd (n := fk.name) (by simp)
    obtain ⟨db', hrun, hext, hnames, hother⟩ := @ih
      { db with
        tables := db.tables.modify t fun d =>
          { d with foreignKeys := d.foreignKeys.filter (·.name ≠ fk.name) } }
      (by rw [Schema.lookup_modify, hd, Option.map_some, if_pos rfl, hrest]) hnd.2
    refine ⟨db', ?_, hext, ?_, fun t' ht' => ?_⟩
    · rw [List.map_cons, runAll_cons, hexec]
      exact hrun
    · rw [hnames, Schema.names_modify]
    · rw [hother t' ht', Schema.lookup_modify]
      simp [ht']

variable (dialect) in
/-- Nothing is in the way of `DROP TABLE IF EXISTS ... CASCADE`. -/
theorem exec_dropTable (t : String) : ∃ db', (dropTable t true).exec dialect db = some db' ∧
    db'.extensions = db.extensions ∧ db'.tables.names = db.tables.names.filter (· ≠ t) := by
  by_cases ht : t ∈ db.tables.names
  · have halter : (dropTable t true).alter dialect db.toCatalog =
        some { db.toCatalog with tables := db.tables.drop t } := by
      simp [alter, ht]
    exact ⟨_, exec_of_fits trivial halter, rfl, Schema.names_drop⟩
  · have halter : (dropTable t true).alter dialect db.toCatalog = some db.toCatalog := by
      simp [alter, ht]
    refine ⟨_, exec_of_fits trivial halter, rfl, ?_⟩
    · refine (List.filter_eq_self.mpr fun n hn => ?_).symm
      have : n ≠ t := fun e => ht (e ▸ hn)
      simpa using this

end Statement

end Common.Relational
