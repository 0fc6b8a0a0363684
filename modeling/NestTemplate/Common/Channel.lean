import Mathlib.Data.List.Basic

/-!
# First-in first-out channels

A `Channel` with its history: what has arrived, and what is still on its way.

* `sent_send`, `sent_take?`: sending adds to what was sent, arriving does not
  change it.
-/

namespace Common

structure Channel (α : Type) where
  delivered : List α := []
  pending : List α := []

namespace Channel

variable {α : Type}

/-- Everything that was ever sent, in order. -/
def sent (c : Channel α) : List α := c.delivered ++ c.pending

def send (as : List α) (c : Channel α) : Channel α := { c with pending := c.pending ++ as }

/-- The oldest message on its way arrives. -/
def take? (c : Channel α) : Option (α × Channel α) :=
  match c.pending with
  | [] => none
  | a :: as => some (a, ⟨c.delivered ++ [a], as⟩)

@[simp] theorem sent_send (as : List α) (c : Channel α) : (c.send as).sent = c.sent ++ as := by
  simp [sent, send]

@[simp] theorem delivered_send (as : List α) (c : Channel α) :
    (c.send as).delivered = c.delivered := rfl

@[simp] theorem send_nil (c : Channel α) : c.send [] = c := by simp [send]

theorem sent_take? {c c' : Channel α} {a : α} (h : c.take? = some (a, c')) : c'.sent = c.sent := by
  unfold take? at h
  split at h
  · cases h
  · rename_i as hpending
    cases h
    simp [sent, hpending]

theorem delivered_take? {c c' : Channel α} {a : α} (h : c.take? = some (a, c')) :
    c'.delivered = c.delivered ++ [a] := by
  unfold take? at h
  split at h
  · cases h
  · cases h
    rfl

end Channel

end Common
