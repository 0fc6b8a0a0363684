import Mathlib.Data.List.Basic

/-!
# Objects by reference

A `Heap α` holds the objects of a program that reaches them through references.
An object stays under its reference for good; what changes is its value.

* `get?_alloc`, `get?_alloc_next`: a new object leaves the old ones alone.
* `get?_modify_self`, `get?_modify_ne`, `get?_modify`: an update is seen through
  its own reference only.
-/

namespace Common

/-- The values of the objects that were allocated so far, in order. -/
structure Heap (α : Type) where
  objects : List α

namespace Heap

/-- The place of an object. -/
abbrev Ref := ℕ

variable {α : Type}

def get? (h : Heap α) (r : Ref) : Option α := h.objects[r]?

/-- The reference of the next object. -/
def next (h : Heap α) : Ref := h.objects.length

def alloc (h : Heap α) (a : α) : Heap α := ⟨h.objects ++ [a]⟩

def modify (h : Heap α) (r : Ref) (f : α → α) : Heap α := ⟨h.objects.modify r f⟩

theorem lt_next {h : Heap α} {r : Ref} {a : α} (hr : h.get? r = some a) : r < h.next :=
  (List.getElem?_eq_some_iff.mp hr).1

@[simp] theorem get?_alloc_next (h : Heap α) (a : α) : (h.alloc a).get? h.next = some a := by
  simp [get?, alloc, next]

theorem get?_alloc {h : Heap α} {r : Ref} {b : α} (hr : h.get? r = some b) (a : α) :
    (h.alloc a).get? r = some b := by
  unfold get? alloc
  rw [List.getElem?_append_left (lt_next hr)]
  exact hr

@[simp] theorem get?_modify_self (h : Heap α) (r : Ref) (f : α → α) :
    (h.modify r f).get? r = (h.get? r).map f := by
  simp [get?, modify]

theorem get?_modify (h : Heap α) (r r' : Ref) (f : α → α) :
    (h.modify r f).get? r' = (h.get? r').map fun a => if r' = r then f a else a := by
  by_cases hr : r' = r
  · subst hr
    simp
  · simp [get?, modify, hr, Ne.symm hr]

@[simp] theorem next_alloc (h : Heap α) (a : α) : (h.alloc a).next = h.next + 1 := by
  simp [next, alloc]

@[simp] theorem next_modify (h : Heap α) (r : Ref) (f : α → α) : (h.modify r f).next = h.next := by
  simp [next, modify]

theorem get?_alloc_eq_some {h : Heap α} {a b : α} {r : Ref} :
    (h.alloc a).get? r = some b ↔ h.get? r = some b ∨ (r = h.next ∧ a = b) := by
  constructor
  · intro hb
    by_cases hr : r = h.next
    · subst hr
      exact .inr ⟨rfl, Option.some.inj ((get?_alloc_next h a).symm.trans hb)⟩
    · have hlt : r < h.next := by
        have hle := lt_next hb
        rw [next_alloc] at hle
        exact Nat.lt_of_le_of_ne (Nat.le_of_lt_succ hle) hr
      unfold get? alloc at hb
      rw [List.getElem?_append_left hlt] at hb
      exact .inl hb
  · rintro (hb | ⟨rfl, rfl⟩)
    · exact get?_alloc hb a
    · exact get?_alloc_next h a

/-- An update that keeps `g` of every object keeps the list of them. -/
theorem map_objects_modify {β : Type} {g : α → β} {f : α → α} (hf : ∀ a, g (f a) = g a)
    (h : Heap α) (r : Ref) : (h.modify r f).objects.map g = h.objects.map g := by
  unfold modify
  refine List.ext_getElem? fun i => ?_
  rw [List.getElem?_map, List.getElem?_map, List.getElem?_modify]
  cases h.objects[i]? with
  | none => rfl
  | some a => by_cases hr : r = i <;> simp [hr, hf]

/-- Where objects are only added, and `g` of the old ones is kept, the old ones are found. -/
theorem get?_of_map_prefix {β : Type} {g : α → β} {h h' : Heap α}
    (hmap : h.objects.map g <+: h'.objects.map g) {r : Ref} {a : α} (ha : h.get? r = some a) :
    ∃ a', h'.get? r = some a' ∧ g a' = g a := by
  obtain ⟨bs, hbs⟩ := hmap
  have hlt : r < (h.objects.map g).length := by
    rw [List.length_map]
    exact lt_next ha
  have hr : (h'.objects.map g)[r]? = some (g a) := by
    rw [← hbs, List.getElem?_append_left hlt, List.getElem?_map, show h.objects[r]? = some a from ha,
      Option.map_some]
  rw [List.getElem?_map] at hr
  exact Option.map_eq_some_iff.mp hr

theorem get?_modify_ne (h : Heap α) {r r' : Ref} (hne : r ≠ r') (f : α → α) :
    (h.modify r f).get? r' = h.get? r' := by
  simp [get?, modify, hne]

end Heap

end Common
