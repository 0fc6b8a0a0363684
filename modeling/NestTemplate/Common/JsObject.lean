import Mathlib.Algebra.GroupWithZero.Nat
import Mathlib.Algebra.Order.Monoid.Unbundled.WithTop
import Mathlib.Data.List.Nodup
import Mathlib.Data.List.Sort
import NestTemplate.Common.Table

/-!
# Plain objects of JavaScript

A `JsObject α` lists its own properties in the order of their creation; a key
occurs once, which is a field.

* `assign`: `object[key] = value`. A key `__proto__` names the accessor that every
  plain object inherits, so the assignment creates no property.
* `set`: the definition of a property, as in an object literal and in `JSON.parse`.
* `entries`: `Object.entries`. The keys that are array indices come first, in
  ascending order (`entries_perm`, `entries_ofList_map`).
* `spread`: `{ ...a, ...b }` (`mem_spread`).
-/

namespace Common

/-- Where keys are distinct, a key is none of those before or behind it. -/
theorem notMem_map_of_nodup {β γ : Type} {f : β → γ} {earlier later : List β} {e : β}
    (h : ((earlier ++ e :: later).map f).Nodup) :
    f e ∉ earlier.map f ∧ f e ∉ later.map f := by
  rw [List.map_append, List.map_cons, List.nodup_middle, List.nodup_cons, List.mem_append,
    not_or] at h
  exact h.1

/-- An object with own properties of values `α`. -/
structure JsObject (α : Type) where
  properties : List (String × α)
  nodup : (properties.map Prod.fst).Nodup

namespace JsObject

variable {α : Type}

/-- The object literal `{}`. -/
def empty : JsObject α := ⟨[], List.nodup_nil⟩

instance : EmptyCollection (JsObject α) := ⟨empty⟩

instance : Membership (String × α) (JsObject α) := ⟨fun o e => e ∈ o.properties⟩

theorem mem_def {o : JsObject α} {e : String × α} : e ∈ o ↔ e ∈ o.properties := Iff.rfl

@[simp] theorem notMem_empty (e : String × α) : e ∉ (∅ : JsObject α) := List.not_mem_nil

/-- `Object.prototype.hasOwnProperty.call(object, key)`. -/
def hasOwn (o : JsObject α) (key : String) : Prop := key ∈ o.properties.map Prod.fst

instance (o : JsObject α) (key : String) : Decidable (o.hasOwn key) :=
  inferInstanceAs (Decidable (key ∈ o.properties.map Prod.fst))

theorem hasOwn_iff {o : JsObject α} {key : String} : o.hasOwn key ↔ ∃ v, (key, v) ∈ o := by
  simp [hasOwn, mem_def]

/-- A key has one value. -/
theorem value_unique {o : JsObject α} {key : String} {v w : α} (hv : (key, v) ∈ o)
    (hw : (key, w) ∈ o) : v = w := by
  have := List.inj_on_of_nodup_map o.nodup hv hw rfl
  exact congrArg Prod.snd this

/-- The value under `key`. -/
def get? (o : JsObject α) (key : String) : Option α :=
  (o.properties.find? (·.1 = key)).map Prod.snd

theorem get?_eq_some {o : JsObject α} {key : String} {v : α} :
    o.get? key = some v ↔ (key, v) ∈ o :=
  Table.find?_fst_eq_some o.nodup

/-! ## Changing an object -/

/-- The property with `key` changed by `f`. -/
def modify (o : JsObject α) (key : String) (f : α → α) : JsObject α where
  properties := o.properties.map fun e => if e.1 = key then (e.1, f e.2) else e
  nodup := by
    have : (o.properties.map fun e => if e.1 = key then (e.1, f e.2) else e).map Prod.fst =
        o.properties.map Prod.fst := by
      rw [List.map_map]
      refine List.map_congr_left fun e _ => ?_
      simp only [Function.comp_apply]
      split <;> rfl
    rw [this]
    exact o.nodup

theorem mem_modify {o : JsObject α} {key : String} {f : α → α} {e : String × α} :
    e ∈ o.modify key f ↔ (e.1 ≠ key ∧ e ∈ o) ∨ ∃ v, (key, v) ∈ o ∧ e = (key, f v) := by
  rw [mem_def, modify, List.mem_map]
  constructor
  · rintro ⟨⟨k, v⟩, hmem, rfl⟩
    by_cases hk : k = key
    · subst hk
      exact .inr ⟨v, hmem, by simp⟩
    · rw [if_neg hk]
      exact .inl ⟨hk, hmem⟩
  · rintro (⟨hk, hmem⟩ | ⟨v, hmem, rfl⟩)
    · exact ⟨e, hmem, by rw [if_neg hk]⟩
    · exact ⟨(key, v), hmem, by simp⟩

/-- The property with `key` defined: an own one keeps its place, a new one is the last. -/
def set (o : JsObject α) (key : String) (v : α) : JsObject α :=
  if h : o.hasOwn key then o.modify key fun _ => v
  else
    { properties := o.properties ++ [(key, v)]
      nodup := by
        rw [List.map_append]
        refine List.nodup_append.2 ⟨o.nodup, List.nodup_singleton _, fun a ha b hb => ?_⟩
        rw [List.map_singleton, List.mem_singleton] at hb
        rintro rfl
        subst hb
        exact h ha }

@[simp] theorem mem_set {o : JsObject α} {key : String} {v : α} {e : String × α} :
    e ∈ o.set key v ↔ e = (key, v) ∨ (e.1 ≠ key ∧ e ∈ o) := by
  unfold set
  split
  · rename_i h
    obtain ⟨w, hw⟩ := hasOwn_iff.1 h
    rw [mem_modify]
    constructor
    · rintro (he | ⟨-, -, rfl⟩)
      · exact .inr he
      · exact .inl rfl
    · rintro (rfl | he)
      · exact .inr ⟨w, hw, rfl⟩
      · exact .inl he
  · rename_i h
    rw [mem_def, List.mem_append, List.mem_singleton, ← mem_def, or_comm]
    refine or_congr_right ⟨fun he => ⟨?_, he⟩, And.right⟩
    rintro rfl
    exact h (hasOwn_iff.2 ⟨e.2, he⟩)

theorem get?_set_self {o : JsObject α} {key : String} {v : α} : (o.set key v).get? key = some v :=
  get?_eq_some.2 (mem_set.2 (.inl rfl))

theorem get?_set_of_ne {o : JsObject α} {key key' : String} {v : α} (h : key' ≠ key) :
    (o.set key v).get? key' = o.get? key' := by
  refine Option.ext fun w => ?_
  rw [get?_eq_some, get?_eq_some, mem_set]
  simp [h]

theorem set_properties {o : JsObject α} {key : String} {v : α} (h : ¬ o.hasOwn key) :
    (o.set key v).properties = o.properties ++ [(key, v)] := by
  rw [set, dif_neg h]

/-- `object[key] = value`. -/
def assign (o : JsObject α) (key : String) (v : α) : JsObject α :=
  if key = "__proto__" then o else o.set key v

theorem assign_of_ne {o : JsObject α} {key : String} {v : α} (h : key ≠ "__proto__") :
    o.assign key v = o.set key v := if_neg h

/-! ## The order of the keys -/

/-- The array index that a key is the canonical text of; `⊤` for every other key. -/
def arrayIndex (key : String) : WithTop ℕ :=
  let n : ℕ := key.toList.foldl (fun n c => 10 * n + (c.toNat - 48)) 0
  if toString n = key ∧ n < 2 ^ 32 - 1 then (n : WithTop ℕ) else ⊤

/-- `a` does not come after `b` on account of its key. -/
def keyLE (a b : String × α) : Prop := arrayIndex a.1 ≤ arrayIndex b.1

instance : DecidableRel (keyLE (α := α)) := fun a b =>
  inferInstanceAs (Decidable (arrayIndex a.1 ≤ arrayIndex b.1))

instance : Std.Total (keyLE (α := α)) := ⟨fun a b => le_total (arrayIndex a.1) (arrayIndex b.1)⟩

instance : IsTrans (String × α) keyLE := ⟨fun _ _ _ h h' => le_trans (α := WithTop ℕ) h h'⟩

/-- `Object.entries(object)`. -/
def entries (o : JsObject α) : List (String × α) := o.properties.insertionSort keyLE

theorem entries_perm (o : JsObject α) : o.entries.Perm o.properties := List.perm_insertionSort _ _

@[simp] theorem mem_entries {o : JsObject α} {e : String × α} : e ∈ o.entries ↔ e ∈ o :=
  o.entries_perm.mem_iff

theorem entries_nodup (o : JsObject α) : (o.entries.map Prod.fst).Nodup :=
  (o.entries_perm.map Prod.fst).nodup_iff.2 o.nodup

theorem get?_eq_none {o : JsObject α} {key : String} : o.get? key = none ↔ ¬ o.hasOwn key := by
  rw [hasOwn_iff, Option.eq_none_iff_forall_ne_some, not_exists]
  exact forall_congr' fun v => not_congr get?_eq_some

/-- A key has one entry at most. -/
theorem filter_entries (o : JsObject α) (key : String) :
    o.entries.filter (·.1 = key) = ((o.get? key).map (key, ·)).toList := by
  cases hget : o.get? key with
  | none =>
    rw [Option.map_none, Option.toList_none, List.filter_eq_nil_iff]
    intro e he
    rw [decide_eq_true_eq]
    rintro rfl
    exact get?_eq_none.1 hget (hasOwn_iff.2 ⟨e.2, mem_entries.1 he⟩)
  | some v =>
    rw [Option.map_some, Option.toList_some, ← List.perm_singleton]
    have hnodup : o.entries.Nodup := List.Nodup.of_map _ o.entries_nodup
    refine (List.perm_ext_iff_of_nodup (hnodup.filter _) (List.nodup_singleton _)).2 fun e => ?_
    rw [List.mem_filter, mem_entries, decide_eq_true_eq, List.mem_singleton]
    constructor
    · rintro ⟨he, rfl⟩
      rw [value_unique (get?_eq_some.1 hget) he]
    · rintro rfl
      exact ⟨get?_eq_some.1 hget, rfl⟩

/-! ## Objects from properties -/

/-- The object that defines the properties `es` one after the other. -/
def ofList (es : List (String × α)) : JsObject α := es.foldl (fun o e => o.set e.1 e.2) ∅

theorem foldl_set_properties {es : List (String × α)} {o : JsObject α}
    (h : ((o.properties ++ es).map Prod.fst).Nodup) :
    (es.foldl (fun o e => o.set e.1 e.2) o).properties = o.properties ++ es := by
  induction es generalizing o with
  | nil => simp
  | cons e es ih =>
    have hset := set_properties (v := e.2) (notMem_map_of_nodup h).1
    rw [List.foldl_cons, ih (by rw [hset]; simpa using h), hset, List.append_assoc]
    rfl

/-- Properties with distinct keys are the object's own, in their order. -/
theorem ofList_properties {es : List (String × α)} (h : (es.map Prod.fst).Nodup) :
    (ofList es).properties = es :=
  foldl_set_properties (o := ∅) h

/-- An object that is built from another one's entries, with other values, has these entries. -/
theorem entries_ofList_map {β : Type} (o : JsObject α) (f : α → β) :
    (ofList (o.entries.map fun e => (e.1, f e.2))).entries = o.entries.map fun e => (e.1, f e.2) := by
  have hnodup : ((o.entries.map fun e => (e.1, f e.2)).map Prod.fst).Nodup := by
    rw [List.map_map]
    exact o.entries_nodup
  rw [entries, ofList_properties hnodup]
  refine List.Pairwise.insertionSort_eq (List.pairwise_map.2 ?_)
  exact List.pairwise_insertionSort keyLE o.properties

/-- `{ ...a, ...b }`. -/
def spread (a b : JsObject α) : JsObject α := ofList (a.entries ++ b.entries)

/-- Of two definitions of a key the last counts. -/
theorem mem_foldl_set {es : List (String × α)} (hes : (es.map Prod.fst).Nodup) {o : JsObject α}
    {e : String × α} : e ∈ es.foldl (fun o e => o.set e.1 e.2) o ↔
      e ∈ es ∨ (e.1 ∉ es.map Prod.fst ∧ e ∈ o) := by
  induction es generalizing o with
  | nil => simp
  | cons d es ih =>
    rw [List.map_cons, List.nodup_cons] at hes
    rw [List.foldl_cons, ih hes.2, mem_set]
    constructor
    · rintro (h | ⟨h, rfl | ⟨hne, ho⟩⟩)
      · exact .inl (List.mem_cons_of_mem d h)
      · exact .inl List.mem_cons_self
      · exact .inr ⟨by simp [hne] at h ⊢; exact h, ho⟩
    · rintro (h | ⟨h, ho⟩)
      · rcases List.mem_cons.1 h with rfl | h
        · exact .inr ⟨hes.1, .inl rfl⟩
        · exact .inl h
      · rw [List.map_cons, List.mem_cons, not_or] at h
        exact .inr ⟨h.2, .inr ⟨h.1, ho⟩⟩

@[simp] theorem mem_spread {a b : JsObject α} {e : String × α} :
    e ∈ a.spread b ↔ e ∈ b ∨ (¬ b.hasOwn e.1 ∧ e ∈ a) := by
  have hkeys : e.1 ∈ b.entries.map Prod.fst ↔ b.hasOwn e.1 :=
    (b.entries_perm.map Prod.fst).mem_iff
  rw [spread, ofList, List.foldl_append, mem_foldl_set b.entries_nodup, mem_entries, hkeys,
    mem_foldl_set a.entries_nodup]
  simp

theorem get?_spread_of_not_hasOwn {a b : JsObject α} {key : String} (h : ¬ b.hasOwn key) :
    (a.spread b).get? key = a.get? key := by
  refine Option.ext fun v => ?_
  rw [get?_eq_some, get?_eq_some, mem_spread]
  constructor
  · rintro (hb | ⟨-, ha⟩)
    · exact absurd (hasOwn_iff.2 ⟨v, hb⟩) h
    · exact ha
  · exact fun ha => .inr ⟨h, ha⟩

theorem mem_of_mem_foldl_set {es : List (String × α)} {o : JsObject α} {e : String × α}
    (h : e ∈ es.foldl (fun o e => o.set e.1 e.2) o) : e ∈ es ∨ e ∈ o := by
  induction es generalizing o with
  | nil => exact .inr h
  | cons d es ih =>
    rcases ih h with hes | hset
    · exact .inl (List.mem_cons_of_mem d hes)
    · rcases mem_set.1 hset with rfl | ⟨-, ho⟩
      · exact .inl List.mem_cons_self
      · exact .inr ho

/-- Every own property was defined. -/
theorem mem_of_mem_ofList {es : List (String × α)} {e : String × α} (h : e ∈ ofList es) : e ∈ es :=
  (mem_of_mem_foldl_set h).resolve_right (notMem_empty e)

@[simp] theorem mem_ofList_singleton {d e : String × α} : e ∈ ofList [d] ↔ e = d :=
  List.mem_singleton

@[simp] theorem hasOwn_ofList_singleton {d : String × α} {key : String} :
    (ofList [d]).hasOwn key ↔ key = d.1 := List.mem_singleton

end JsObject

end Common
