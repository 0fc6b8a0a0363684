import Mathlib.Data.List.Nodup
import Mathlib.Data.List.Perm.Basic

/-!
# Tables with a primary key

A `Table key` is a list of rows whose keys are pairwise distinct; the constraint
is a field, so no operation can leave two rows under one key.

* `find?`: look-up by primary key (`mem_of_find?`, `find?_eq_some`).
* `insert?`: refuses a row whose key is taken.
* `filter`, `modify`: delete and update.
-/

namespace Common

/-- Rows under pairwise distinct keys. -/
structure Table {ρ κ : Type} (key : ρ → κ) where
  rows : List ρ
  nodup : (rows.map key).Nodup

namespace Table

variable {ρ κ : Type} {key : ρ → κ}

instance : Membership ρ (Table key) := ⟨fun t r => r ∈ t.rows⟩

theorem mem_def {t : Table key} {r : ρ} : r ∈ t ↔ r ∈ t.rows := Iff.rfl

instance [DecidableEq ρ] (r : ρ) (t : Table key) : Decidable (r ∈ t) :=
  inferInstanceAs (Decidable (r ∈ t.rows))

instance (t : Table key) (p : ρ → Prop) [DecidablePred p] : Decidable (∃ r ∈ t, p r) :=
  inferInstanceAs (Decidable (∃ r ∈ t.rows, p r))

instance (t : Table key) (p : ρ → Prop) [DecidablePred p] : Decidable (∀ r ∈ t, p r) :=
  inferInstanceAs (Decidable (∀ r ∈ t.rows, p r))

/-- The table without rows. -/
def empty : Table key := ⟨[], List.nodup_nil⟩

instance : EmptyCollection (Table key) := ⟨empty⟩

@[simp] theorem notMem_empty (r : ρ) : r ∉ (∅ : Table key) := List.not_mem_nil

/-- Two rows under one key are one row. -/
theorem eq_of_key_eq {t : Table key} {r r' : ρ} (h : r ∈ t) (h' : r' ∈ t) (hk : key r = key r') :
    r = r' :=
  List.inj_on_of_nodup_map t.nodup h h' hk

/-- The first row that satisfies `p`, `findOne({ where })`. -/
def findOne (t : Table key) (p : ρ → Bool) : Option ρ := t.rows.find? p

theorem mem_of_findOne {t : Table key} {p : ρ → Bool} {r : ρ} (h : t.findOne p = some r) :
    r ∈ t ∧ p r = true :=
  ⟨List.mem_of_find?_eq_some h, List.find?_some h⟩

theorem findOne_eq_none {t : Table key} {p : ρ → Bool} :
    t.findOne p = none ↔ ∀ r ∈ t, p r = false := by
  unfold findOne
  rw [List.find?_eq_none]
  simp [mem_def]

/-- A predicate that holds of exactly one row finds that row. -/
theorem findOne_eq_some {t : Table key} {p : ρ → Bool} {r : ρ} (hr : r ∈ t) (hp : p r = true)
    (huniq : ∀ r' ∈ t, p r' = true → r' = r) : t.findOne p = some r := by
  cases h : t.findOne p with
  | none => rw [findOne_eq_none.mp h r hr] at hp; cases hp
  | some r' =>
    obtain ⟨hm, hp'⟩ := mem_of_findOne h
    rw [huniq r' hm hp']

/-- Keep the rows that satisfy `p`. -/
def filter (t : Table key) (p : ρ → Bool) : Table key :=
  ⟨t.rows.filter p, (List.filter_sublist.map key).nodup t.nodup⟩

@[simp] theorem mem_filter {t : Table key} {p : ρ → Bool} {r : ρ} :
    r ∈ t.filter p ↔ r ∈ t ∧ p r = true := List.mem_filter

theorem filter_eq_self {t : Table key} {p : ρ → Bool} (h : ∀ r ∈ t, p r = true) :
    t.filter p = t := by
  obtain ⟨rows, nodup⟩ := t
  unfold filter
  congr
  exact List.filter_eq_self.mpr h

/-- Rewrite every row by `f`, which leaves the keys alone. -/
def modify (t : Table key) (f : ρ → ρ) (hf : ∀ r, key (f r) = key r) : Table key :=
  ⟨t.rows.map f, by rw [List.map_map, show key ∘ f = key from funext hf]; exact t.nodup⟩

@[simp] theorem mem_modify {t : Table key} {f : ρ → ρ} {hf : ∀ r, key (f r) = key r} {r : ρ} :
    r ∈ t.modify f hf ↔ ∃ r₀ ∈ t, f r₀ = r := List.mem_map

section Key

variable [DecidableEq κ]

/-- The row under the key `k`, `findByPk`. -/
def find? (t : Table key) (k : κ) : Option ρ := t.findOne fun r => key r = k

theorem mem_of_find? {t : Table key} {k : κ} {r : ρ} (h : t.find? k = some r) :
    r ∈ t ∧ key r = k := by
  simpa using mem_of_findOne h

theorem find?_eq_some {t : Table key} {k : κ} {r : ρ} :
    t.find? k = some r ↔ r ∈ t ∧ key r = k := by
  refine ⟨mem_of_find?, fun ⟨hr, hk⟩ => findOne_eq_some hr (by simpa using hk) ?_⟩
  intro r' hr' hk'
  exact eq_of_key_eq hr' hr (by simp_all)

theorem find?_key {t : Table key} {r : ρ} (h : r ∈ t) : t.find? (key r) = some r :=
  find?_eq_some.mpr ⟨h, rfl⟩

/-- Entries under distinct keys are a table; a key has the value of its entry. -/
theorem find?_fst_eq_some {α : Type} {entries : List (κ × α)}
    (h : (entries.map Prod.fst).Nodup) {k : κ} {v : α} :
    (entries.find? (·.1 = k)).map Prod.snd = some v ↔ (k, v) ∈ entries := by
  have hfind : entries.find? (·.1 = k) = (⟨entries, h⟩ : Table Prod.fst).find? k := rfl
  rw [hfind, Option.map_eq_some_iff]
  simp only [find?_eq_some]
  constructor
  · rintro ⟨⟨k, v⟩, ⟨hmem, rfl⟩, rfl⟩
    exact hmem
  · exact fun hmem => ⟨_, ⟨hmem, rfl⟩, rfl⟩

theorem find?_eq_none {t : Table key} {k : κ} : t.find? k = none ↔ ∀ r ∈ t, key r ≠ k := by
  simp [find?, findOne_eq_none]

/-- Add a row, unless its key is taken. -/
def insert? (t : Table key) (r : ρ) : Option (Table key) :=
  if h : key r ∈ t.rows.map key then none
  else some ⟨r :: t.rows, by rw [List.map_cons]; exact List.nodup_cons.mpr ⟨h, t.nodup⟩⟩

theorem insert?_isSome {t : Table key} {r : ρ} :
    (t.insert? r).isSome = true ↔ ∀ r' ∈ t, key r' ≠ key r := by
  unfold insert?
  split <;> rename_i h <;> simpa [mem_def] using h

theorem mem_insert? {t t' : Table key} {r : ρ} (h : t.insert? r = some t') (r' : ρ) :
    r' ∈ t' ↔ r' = r ∨ r' ∈ t := by
  unfold insert? at h
  split at h
  · cases h
  · cases h; exact List.mem_cons

theorem insert?_fresh {t t' : Table key} {r : ρ} (h : t.insert? r = some t') :
    ∀ r' ∈ t, key r' ≠ key r :=
  insert?_isSome.mp (by rw [h]; rfl)

end Key

end Table

end Common
