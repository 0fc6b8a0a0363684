import Mathlib.Data.List.Infix

/-!
# The parts of a list between separators

* `splitOnP_append`: the parts of a list that is put together.
* `forall_of_mem_splitOnP`: the parts hold no separator.
-/

namespace Common

namespace Parts

variable {α : Type*} (p : α → Bool)

/-- The parts of a list that what follows cannot change. -/
def closedParts (cs : List α) : List (List α) := (cs.splitOnP p).dropLast

/-- The last part. -/
def openPart (cs : List α) : List α := (cs.splitOnP p).getLastD []

/-- The first part, and the others. -/
def firstPart (cs : List α) : List α := (cs.splitOnP p).headD []

def laterParts (cs : List α) : List (List α) := (cs.splitOnP p).tail

variable {p}

theorem splitOnP_eq_cons (cs : List α) : cs.splitOnP p = firstPart p cs :: laterParts p cs := by
  obtain ⟨head, tail, h⟩ := List.exists_cons_of_ne_nil (List.splitOnP_ne_nil p cs)
  unfold firstPart laterParts
  rw [h]
  rfl

theorem splitOnP_cons_of_pos {c : α} (h : p c = true) (cs : List α) :
    (c :: cs).splitOnP p = [] :: cs.splitOnP p := by
  rw [List.splitOnP_cons_eq_if_modifyHead, if_pos h]

theorem splitOnP_cons_of_neg {c : α} (h : p c = false) (cs : List α) :
    (c :: cs).splitOnP p = (c :: firstPart p cs) :: laterParts p cs := by
  rw [List.splitOnP_cons_eq_if_modifyHead, if_neg (by simp [h]), splitOnP_eq_cons]
  rfl

theorem firstPart_cons_of_pos {c : α} (h : p c = true) (cs : List α) :
    firstPart p (c :: cs) = [] := by
  rw [firstPart, splitOnP_cons_of_pos h]
  rfl

theorem firstPart_cons_of_neg {c : α} (h : p c = false) (cs : List α) :
    firstPart p (c :: cs) = c :: firstPart p cs := by
  rw [firstPart, splitOnP_cons_of_neg h]
  rfl

/-- The last part of the one list and the first of the other become one part. -/
theorem splitOnP_append (cs ds : List α) : (cs ++ ds).splitOnP p =
    closedParts p cs ++ (openPart p cs ++ firstPart p ds) :: laterParts p ds := by
  unfold closedParts openPart
  induction cs with
  | nil => exact splitOnP_eq_cons ds
  | cons c cs ih =>
    rw [List.cons_append]
    cases hc : p c with
    | true =>
      rw [splitOnP_cons_of_pos hc, splitOnP_cons_of_pos hc, ih, splitOnP_eq_cons cs]
      rfl
    | false =>
      have ih' := ih
      rw [splitOnP_eq_cons, splitOnP_eq_cons cs] at ih'
      rw [splitOnP_cons_of_neg hc, splitOnP_cons_of_neg hc]
      cases hlater : laterParts p cs with
      | nil =>
        rw [hlater] at ih'
        obtain ⟨hfirst, hrest⟩ := List.cons.inj ih'
        rw [hfirst, hrest]
        rfl
      | cons part parts =>
        rw [hlater] at ih'
        obtain ⟨hfirst, hrest⟩ := List.cons.inj ih'
        rw [hfirst, hrest]
        rfl

/-- A list without separators in front makes the first part longer. -/
theorem splitOnP_append_of_forall {cs : List α} (h : ∀ c ∈ cs, p c = false) (ds : List α) :
    (cs ++ ds).splitOnP p = (cs ++ firstPart p ds) :: laterParts p ds := by
  rw [splitOnP_append]
  unfold closedParts openPart
  rw [List.splitOnP_eq_singleton h]
  rfl

/-- The parts hold no separator and nothing new. -/
theorem forall_of_mem_splitOnP {cs part : List α} (h : part ∈ cs.splitOnP p) :
    ∀ c ∈ part, p c = false ∧ c ∈ cs := by
  induction cs generalizing part with
  | nil =>
    rw [List.splitOnP_nil, List.mem_singleton] at h
    simp [h]
  | cons d ds ih =>
    intro c hc
    cases hd : p d with
    | true =>
      rw [splitOnP_cons_of_pos hd] at h
      rcases List.mem_cons.mp h with rfl | h
      · cases hc
      · exact (ih h c hc).imp_right (List.mem_cons_of_mem _)
    | false =>
      rw [splitOnP_cons_of_neg hd] at h
      rw [splitOnP_eq_cons] at ih
      rcases List.mem_cons.mp h with rfl | h
      · rcases List.mem_cons.mp hc with rfl | hc
        · exact ⟨hd, List.mem_cons_self ..⟩
        · exact (ih (List.mem_cons_self ..) c hc).imp_right (List.mem_cons_of_mem _)
      · exact (ih (List.mem_cons_of_mem _ h) c hc).imp_right (List.mem_cons_of_mem _)

/-- There is one part more than there are separators. -/
theorem length_splitOnP (p : α → Bool) (cs : List α) :
    (cs.splitOnP p).length = cs.countP p + 1 := by
  induction cs with
  | nil => rfl
  | cons c cs ih =>
    cases hc : p c with
    | true =>
      rw [splitOnP_cons_of_pos hc, List.length_cons, ih, List.countP_cons_of_pos hc]
    | false =>
      rw [splitOnP_eq_cons] at ih
      rw [splitOnP_cons_of_neg hc, List.countP_cons_of_neg (by simp [hc]), ← ih]
      rfl

end Parts

end Common
