import Mathlib.Data.List.Nodup

/-!
# Relational schemas and their constraints

A `Schema` lists tables with typed columns, foreign keys and indexes; a
`Content` gives every table its rows. `Admits` is what a database enforces
between rows: not-null columns, unique columns, foreign keys. `Accepts` adds the
types of the columns.

* `Deleted`: the rows that `DELETE` removes, the selected ones and those that
  `ON DELETE CASCADE` takes with them; `delete` is what is left.
* `Admits.delete`: where every foreign key cascades, a delete keeps the
  constraints.
* `notMem_of_deleted`: a part of the content that satisfies the foreign keys and
  has none of the selected rows has none of the deleted ones, so `delete` leaves
  the largest such part (`delete_eq`).
-/

namespace Common.Relational

/-- A column; `τ` are the column types and `δ` the default values. -/
structure Column (τ δ : Type) where
  type : τ
  allowNull : Bool
  primaryKey : Bool := false
  unique : Bool := false
  autoIncrement : Bool := false
  defaultValue : Option δ := none
  deriving DecidableEq, Repr

/-- A foreign key may refer to it. -/
def Column.keyed {τ δ : Type} (c : Column τ δ) : Bool := c.primaryKey || c.unique

/-- What happens to a row whose referenced row goes. -/
inductive ReferentialAction where
  | cascade
  | noAction
  deriving DecidableEq, Repr

/-- `field` refers to the column `key` of `table`. -/
structure ForeignKey where
  name : String
  field : String
  table : String
  key : String
  onDelete : ReferentialAction
  onUpdate : ReferentialAction
  deriving DecidableEq, Repr

structure TableDef (τ δ : Type) where
  columns : List (String × Column τ δ)
  foreignKeys : List ForeignKey := []
  /-- Their names and the indexed columns. -/
  indexes : List (String × List String) := []
  deriving DecidableEq, Repr

/-- The tables with their names. -/
abbrev Schema (τ δ : Type) := List (String × TableDef τ δ)

/-- The value of every column, `none` for `NULL` and for columns the table does not have. -/
abbrev Row (ν : Type) := String → Option ν

/-- The rows of every table. -/
abbrev Content (ν : Type) := String → List (Row ν)

variable {τ δ ν : Type}

/-- Every row of `t` that has a value in `fk.field` refers to a row. -/
def Refers (c : Content ν) (t : String) (fk : ForeignKey) : Prop :=
  ∀ r ∈ c t, ∀ v ∈ r fk.field, ∃ r' ∈ c fk.table, r' fk.key = some v

instance [DecidableEq ν] (c : Content ν) (t : String) (fk : ForeignKey) :
    Decidable (Refers c t fk) :=
  inferInstanceAs (Decidable (∀ r ∈ c t, ∀ v ∈ r fk.field, ∃ r' ∈ c fk.table, r' fk.key = some v))

/-- The rows satisfy the constraints of the schema. -/
structure Admits (s : Schema τ δ) (c : Content ν) : Prop where
  /-- Rows are in tables that exist. -/
  rows : ∀ t, t ∉ s.map Prod.fst → c t = []
  /-- Values are in columns that exist. -/
  columns : ∀ t d, (t, d) ∈ s → ∀ r ∈ c t, ∀ f, f ∉ d.columns.map Prod.fst → r f = none
  notNull : ∀ t d, (t, d) ∈ s → ∀ f col, (f, col) ∈ d.columns → col.allowNull = false →
    ∀ r ∈ c t, r f ≠ none
  unique : ∀ t d, (t, d) ∈ s → ∀ f col, (f, col) ∈ d.columns → col.keyed = true →
    ((c t).filterMap fun r => r f).Nodup
  foreignKeys : ∀ t d, (t, d) ∈ s → ∀ fk ∈ d.foreignKeys, Refers c t fk

/-- The rows satisfy the constraints, and every value is one of its column's type: `holds` says
    which values a type has. -/
structure Accepts (holds : τ → ν → Bool) (s : Schema τ δ) (c : Content ν) : Prop extends
    Admits s c where
  typed : ∀ t d, (t, d) ∈ s → ∀ f col, (f, col) ∈ d.columns → ∀ r ∈ c t, ∀ v ∈ r f,
    holds col.type v = true

/-- No value appears twice, so a value names one row. -/
theorem eq_of_nodup_filterMap {rows : List (Row ν)} {f : String}
    (h : (rows.filterMap fun r => r f).Nodup) {r r' : Row ν} (hr : r ∈ rows) (hr' : r' ∈ rows)
    {v : ν} (hv : r f = some v) (hv' : r' f = some v) : r = r' := by
  induction rows with
  | nil => cases hr
  | cons r₀ rows ih =>
    have hmem : ∀ r ∈ rows, r f = some v → v ∈ rows.filterMap fun r => r f := fun r hr hv =>
      List.mem_filterMap.mpr ⟨r, hr, hv⟩
    have htail : (rows.filterMap fun r => r f).Nodup :=
      ((List.sublist_cons_self r₀ rows).filterMap _).nodup h
    have hhead : r₀ f = some v → v ∉ rows.filterMap fun r => r f := by
      intro h₀
      simp only [List.filterMap_cons, h₀] at h
      exact (List.nodup_cons.mp h).1
    cases List.mem_cons.mp hr with
    | inl e =>
      cases List.mem_cons.mp hr' with
      | inl e' => exact e.trans e'.symm
      | inr hr' => exact absurd (hmem r' hr' hv') (hhead (e ▸ hv))
    | inr hr =>
      cases List.mem_cons.mp hr' with
      | inl e' => exact absurd (hmem r hr hv) (hhead (e' ▸ hv'))
      | inr hr' => exact ih htail hr hr'

/-! ## Deletes -/

/-- Every foreign key takes the referring rows along. -/
def Cascades (s : Schema τ δ) : Prop :=
  ∀ t d, (t, d) ∈ s → ∀ fk ∈ d.foreignKeys, fk.onDelete = .cascade

/-- Every foreign key refers to a unique column. -/
def Keyed (s : Schema τ δ) : Prop :=
  ∀ t d, (t, d) ∈ s → ∀ fk ∈ d.foreignKeys, ∃ d' col, (fk.table, d') ∈ s ∧
    (fk.key, col) ∈ d'.columns ∧ col.keyed = true

/-- The rows that go when the rows in `sel` are deleted. -/
inductive Deleted (s : Schema τ δ) (c : Content ν) (sel : String → Row ν → Prop) :
    String → Row ν → Prop
  | selected {t : String} {r : Row ν} : r ∈ c t → sel t r → Deleted s c sel t r
  | cascade {t : String} {d : TableDef τ δ} {fk : ForeignKey} {r r' : Row ν} {v : ν} :
      r ∈ c t → (t, d) ∈ s → fk ∈ d.foreignKeys → fk.onDelete = .cascade →
      r fk.field = some v → r' ∈ c fk.table → r' fk.key = some v →
      Deleted s c sel fk.table r' → Deleted s c sel t r

open Classical in
/-- The content after `DELETE FROM ... WHERE`. -/
noncomputable def delete (s : Schema τ δ) (c : Content ν) (sel : String → Row ν → Prop) :
    Content ν :=
  fun t => (c t).filter fun r => ¬ Deleted s c sel t r

variable {s : Schema τ δ} {c c' : Content ν} {sel : String → Row ν → Prop}

theorem mem_delete {t : String} {r : Row ν} :
    r ∈ delete s c sel t ↔ r ∈ c t ∧ ¬ Deleted s c sel t r := by
  simp [delete]

/-- A part of the content that satisfies the foreign keys satisfies every constraint. -/
theorem Admits.of_sublist (h : Admits s c) (hsub : ∀ t, (c' t).Sublist (c t))
    (href : ∀ t d, (t, d) ∈ s → ∀ fk ∈ d.foreignKeys, Refers c' t fk) : Admits s c' where
  rows t ht := by
    have := hsub t
    rw [h.rows t ht] at this
    exact List.sublist_nil.mp this
  columns t d hd r hr := h.columns t d hd r ((hsub t).mem hr)
  notNull t d hd f col hcol hnull r hr := h.notNull t d hd f col hcol hnull r ((hsub t).mem hr)
  unique t d hd f col hcol hk := ((hsub t).filterMap _).nodup (h.unique t d hd f col hcol hk)
  foreignKeys := href

/-- A delete keeps the constraints. -/
theorem Admits.delete (h : Admits s c) (hcas : Cascades s) : Admits s (delete s c sel) := by
  refine h.of_sublist (fun t => List.filter_sublist) ?_
  intro t d hd fk hfk r hr v hv
  obtain ⟨hrc, hkept⟩ := mem_delete.mp hr
  obtain ⟨r', hr', hv'⟩ := h.foreignKeys t d hd fk hfk r hrc v hv
  -- had the referenced row gone, `r` would have gone with it
  refine ⟨r', mem_delete.mpr ⟨hr', fun hgone => hkept ?_⟩, hv'⟩
  exact .cascade hrc hd hfk (hcas t d hd fk hfk) hv hr' hv' hgone

/-- Whatever satisfies the foreign keys without the selected rows has lost the deleted rows. -/
theorem notMem_of_deleted (h : Admits s c) (hkey : Keyed s) (hsub : ∀ t, ∀ r ∈ c' t, r ∈ c t)
    (href : ∀ t d, (t, d) ∈ s → ∀ fk ∈ d.foreignKeys, Refers c' t fk)
    (hsel : ∀ t, ∀ r ∈ c' t, ¬ sel t r) {t : String} {r : Row ν}
    (hdel : Deleted s c sel t r) : r ∉ c' t := by
  induction hdel with
  | selected _ hs => exact fun hr => hsel _ _ hr hs
  | @cascade t d fk r r' v hrc hd hfk _ hv hr' hv' _ ih =>
    intro hr
    obtain ⟨r'', hr'', hv''⟩ := href t d hd fk hfk r hr v hv
    obtain ⟨d', col, hd', hcol, hk⟩ := hkey t d hd fk hfk
    have hone : r'' = r' :=
      eq_of_nodup_filterMap (h.unique _ d' hd' _ col hcol hk) (hsub _ _ hr'') hr' hv'' hv'
    exact ih (hone ▸ hr'')

open Classical in
/-- The largest part of the content that satisfies the foreign keys without the selected rows. -/
theorem delete_eq (h : Admits s c) (hkey : Keyed s) (p : String → Row ν → Bool)
    (href : ∀ t d, (t, d) ∈ s → ∀ fk ∈ d.foreignKeys, Refers (fun t => (c t).filter (p t)) t fk)
    (hsel : ∀ t, ∀ r ∈ c t, p t r = true → ¬ sel t r)
    (hlost : ∀ t, ∀ r ∈ c t, p t r = false → Deleted s c sel t r) :
    delete s c sel = fun t => (c t).filter (p t) := by
  funext t
  unfold delete
  apply List.filter_congr
  intro r hr
  rw [Bool.eq_iff_iff, decide_eq_true_iff]
  constructor
  · intro hkept
    by_contra hp
    exact hkept (hlost t r hr (by simpa using hp))
  · intro hp hdel
    have hgone : r ∉ (fun t => (c t).filter (p t)) t := by
      refine notMem_of_deleted h hkey (fun t r hr => List.mem_of_mem_filter hr) href ?_ hdel
      intro t r hr
      exact hsel t r (List.mem_filter.mp hr).1 (List.mem_filter.mp hr).2
    exact hgone (List.mem_filter.mpr ⟨hr, hp⟩)

end Common.Relational
