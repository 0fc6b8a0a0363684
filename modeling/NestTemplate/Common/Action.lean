import Mathlib.Logic.Basic
import Mathlib.Order.Defs.PartialOrder

/-!
# Actions: computations over a store that may fail

`Action ε σ α` is a request handler's computation: it reads and writes a store
`σ` and either returns an `α` or fails with an `ε`. A failure keeps the writes
made before it, as statements outside a transaction do; `transaction` undoes
them.

* `bind_eq_ok`, `bind_eq_error`: how a sequence ends.
* `transaction_eq_ok`, `transaction_error`: a transaction commits iff its body
  returns, and leaves the store alone otherwise.
* `Keeps`: a relation between the store before and after that holds however
  the action ends, with its rules for sequences and transactions.
* `FailsIn`: the failures an action may end in, with a rule for each combinator.
-/

namespace Common

/-- A computation over the store `σ` that returns an `α` or fails with an `ε`,
    and leaves a store either way. -/
def Action (ε σ α : Type) : Type := σ → Except ε α × σ

namespace Action

variable {ε σ α β : Type}

instance : Monad (Action ε σ) where
  pure a := fun s => (.ok a, s)
  bind x f := fun s =>
    match x s with
    | (.ok a, t) => f a t
    | (.error e, t) => (.error e, t)

/-- Fail with `e`. -/
def fail (e : ε) : Action ε σ α := fun s => (.error e, s)

/-- Read the store. -/
def read (f : σ → α) : Action ε σ α := fun s => (.ok (f s), s)

/-- The value of a computation that does not touch the store. -/
def lift (x : Except ε α) : Action ε σ α := fun s => (x, s)

/-- A write that the store may refuse. -/
def write (f : σ → Except ε σ) : Action ε σ Unit := fun s =>
  match f s with
  | .ok t => (.ok (), t)
  | .error e => (.error e, s)

/-- Fail with `e` unless `b`. -/
def guard (b : Bool) (e : ε) : Action ε σ Unit := if b then pure () else fail e

/-- Run `x` so that a failure undoes its writes. -/
def transaction (x : Action ε σ α) : Action ε σ α := fun s =>
  match x s with
  | (.ok a, t) => (.ok a, t)
  | (.error e, _) => (.error e, s)

/-- Run `x` and go on, also if it fails; what it wrote stays. -/
def attempt (x : Action ε σ Unit) : Action ε σ Unit := fun s => (.ok (), (x s).2)

/-- Run `y` where `x` fails; what `x` wrote stays. -/
def orElse (x y : Action ε σ α) : Action ε σ α := fun s =>
  match x s with
  | (.ok a, t) => (.ok a, t)
  | (.error _, t) => y t

/-- Run `f` on the elements of a list, up to the first failure. -/
def forEach (f : α → Action ε σ Unit) : List α → Action ε σ Unit
  | [] => pure ()
  | a :: as => f a >>= fun _ => forEach f as

/-! ## How an action ends -/

@[simp] theorem pure_run (a : α) (s : σ) : (pure a : Action ε σ α) s = (.ok a, s) := rfl

@[simp] theorem fail_run (e : ε) (s : σ) : (fail e : Action ε σ α) s = (.error e, s) := rfl

@[simp] theorem read_run (f : σ → α) (s : σ) : (read f : Action ε σ α) s = (.ok (f s), s) := rfl

@[simp] theorem lift_run (x : Except ε α) (s : σ) : (lift x : Action ε σ α) s = (x, s) := rfl

theorem bind_run (x : Action ε σ α) (f : α → Action ε σ β) (s : σ) :
    (x >>= f) s = match x s with
      | (.ok a, t) => f a t
      | (.error e, t) => (.error e, t) := rfl

theorem bind_of_ok {x : Action ε σ α} {s t : σ} {a : α} (h : x s = (.ok a, t))
    (f : α → Action ε σ β) : (x >>= f) s = f a t := by
  rw [bind_run, h]

/-- A sequence returns iff both parts do. -/
theorem bind_eq_ok {x : Action ε σ α} {f : α → Action ε σ β} {s t : σ} {b : β} :
    (x >>= f) s = (.ok b, t) ↔ ∃ a m, x s = (.ok a, m) ∧ f a m = (.ok b, t) := by
  rw [bind_run]
  rcases x s with ⟨_ | a, m⟩
  · simp
  · exact ⟨fun h => ⟨a, m, rfl, h⟩, by rintro ⟨_, _, ⟨⟩, h⟩; exact h⟩

/-- A sequence fails iff its first part does, or the first returns and the second fails. -/
theorem bind_eq_error {x : Action ε σ α} {f : α → Action ε σ β} {s t : σ} {e : ε} :
    (x >>= f) s = (.error e, t) ↔
      x s = (.error e, t) ∨ ∃ a m, x s = (.ok a, m) ∧ f a m = (.error e, t) := by
  rw [bind_run]
  rcases x s with ⟨_ | a, m⟩
  · simp
  · constructor
    · exact fun h => .inr ⟨a, m, rfl, h⟩
    · rintro (h | ⟨_, _, ⟨⟩, h⟩)
      · cases h
      · exact h

@[simp] theorem guard_run (b : Bool) (e : ε) (s : σ) :
    (guard b e : Action ε σ Unit) s = (if b then .ok () else .error e, s) := by
  cases b <;> rfl

/-- After a guard, a sequence goes on iff the guard holds. -/
theorem guard_bind_eq_ok {c : Bool} {e : ε} {f : Unit → Action ε σ β} {s t : σ} {b : β} :
    (guard c e >>= f) s = (.ok b, t) ↔ c = true ∧ f () s = (.ok b, t) := by
  cases c <;> simp [bind_run]

theorem lift_bind_eq_ok {x : Except ε α} {f : α → Action ε σ β} {s t : σ} {b : β} :
    (lift x >>= f) s = (.ok b, t) ↔ ∃ a, x = .ok a ∧ f a s = (.ok b, t) := by
  rw [bind_run]
  cases x <;> simp

theorem read_bind_eq_ok {g : σ → α} {f : α → Action ε σ β} {s t : σ} {b : β} :
    (read g >>= f) s = (.ok b, t) ↔ f (g s) s = (.ok b, t) := Iff.rfl

theorem write_eq_ok {f : σ → Except ε σ} {s t : σ} {u : Unit} :
    write f s = (.ok u, t) ↔ f s = .ok t := by
  unfold write
  cases f s <;> simp

/-- Whether an action returns. -/
def returns (x : Action ε σ α) (s : σ) : Bool := (x s).1.toOption.isSome

theorem returns_iff {x : Action ε σ α} {s : σ} :
    returns x s = true ↔ ∃ a t, x s = (.ok a, t) := by
  unfold returns
  rcases x s with ⟨_ | a, t⟩ <;> simp [Except.toOption]

theorem transaction_eq_ok {x : Action ε σ α} {s t : σ} {a : α} :
    transaction x s = (.ok a, t) ↔ x s = (.ok a, t) := by
  unfold transaction
  rcases x s with ⟨_ | a, m⟩ <;> simp

/-- A failed transaction leaves the store as it was. -/
theorem transaction_error {x : Action ε σ α} {s t : σ} {e : ε}
    (h : transaction x s = (.error e, t)) : t = s := by
  unfold transaction at h
  rcases hx : x s with ⟨_ | a, m⟩ <;> simp_all

theorem orElse_of_ok {x : Action ε σ α} {s t : σ} {a : α} (h : x s = (.ok a, t))
    (y : Action ε σ α) : orElse x y s = (.ok a, t) := by
  unfold orElse
  rw [h]

theorem orElse_of_error {x : Action ε σ α} {s t : σ} {e : ε} (h : x s = (.error e, t))
    (y : Action ε σ α) : orElse x y s = y t := by
  unfold orElse
  rw [h]

/-- Where no step fails, all of them are made. -/
theorem forEach_of_ok {f : α → Action ε σ Unit} {g : σ → α → σ}
    (h : ∀ a s, f a s = (.ok (), g s a)) (as : List α) (s : σ) :
    forEach f as s = (.ok (), as.foldl g s) := by
  induction as generalizing s with
  | nil => rfl
  | cons a as ih => exact (bind_of_ok (h a s) _).trans (ih (g s a))

/-- The image of a result is there iff the result is. -/
theorem map_eq_ok {x : Except ε α} {f : α → β} {b : β} :
    x.map f = .ok b ↔ ∃ a, x = .ok a ∧ b = f a := by
  cases x <;> simp [Except.map, eq_comm]

theorem except_bind_eq_ok {x : Except ε α} {f : α → Except ε β} {b : β} :
    x >>= f = .ok b ↔ ∃ a, x = .ok a ∧ f a = .ok b := by
  cases x <;> simp [bind, Except.bind]

/-! ## What an action keeps -/

/-- However `x` ends, `R` relates the store before to the store after. -/
def Keeps (R : σ → σ → Prop) (x : Action ε σ α) : Prop := ∀ s, R s (x s).2

namespace Keeps

variable {R : σ → σ → Prop}

theorem pure (hr : ∀ s, R s s) (a : α) : Keeps R (Pure.pure a : Action ε σ α) := hr

theorem fail (hr : ∀ s, R s s) (e : ε) : Keeps R (Action.fail e : Action ε σ α) := hr

theorem read (hr : ∀ s, R s s) (f : σ → α) : Keeps R (Action.read f : Action ε σ α) := hr

theorem lift (hr : ∀ s, R s s) (x : Except ε α) : Keeps R (Action.lift x : Action ε σ α) := hr

theorem guard (hr : ∀ s, R s s) (b : Bool) (e : ε) :
    Keeps R (Action.guard b e : Action ε σ Unit) := by
  intro s; rw [guard_run]; exact hr s

theorem bind (ht : ∀ s t u, R s t → R t u → R s u) {x : Action ε σ α} {f : α → Action ε σ β}
    (hx : Keeps R x) (hf : ∀ a, Keeps R (f a)) : Keeps R (x >>= f) := by
  intro s
  have hs := hx s
  rw [bind_run]
  rcases hxs : x s with ⟨e | a, t⟩ <;> rw [hxs] at hs
  · exact hs
  · exact ht _ _ _ hs (hf a t)

theorem write (hr : ∀ s, R s s) {f : σ → Except ε σ} (hf : ∀ s t, f s = .ok t → R s t) :
    Keeps R (Action.write f) := by
  intro s
  unfold Action.write
  cases h : f s with
  | ok t => exact hf s t h
  | error e => exact hr s

/-- What the body keeps, the transaction keeps. -/
theorem transaction (hr : ∀ s, R s s) {x : Action ε σ α} (hx : Keeps R x) :
    Keeps R (Action.transaction x) := by
  intro s
  have hs := hx s
  unfold Action.transaction
  rcases hxs : x s with ⟨e | a, t⟩ <;> rw [hxs] at hs
  · exact hr s
  · exact hs

end Keeps

/-! ## What an action fails with -/

/-- Where `x` fails from `s`, it fails with a `P`. -/
def FailsIn (P : ε → Prop) (x : Action ε σ α) (s : σ) : Prop := ∀ e t, x s = (.error e, t) → P e

section FailsIn

variable {P : ε → Prop} {s : σ}

theorem failsIn_of_ok {x : Action ε σ α} {a : α} {t : σ} (h : x s = (.ok a, t)) :
    FailsIn P x s := by
  intro e t he
  rw [h] at he
  cases he

/-- An action that fails only with a `P` that is none returns. -/
theorem exists_ok_of_failsIn {x : Action ε σ α} (h : FailsIn P x s) (hn : FailsIn (¬ P ·) x s) :
    ∃ a t, x s = (.ok a, t) := by
  rcases hx : x s with ⟨e | a, t⟩
  · exact absurd (h e t hx) (hn e t hx)
  · exact ⟨a, t, rfl⟩

@[simp] theorem failsIn_pure (a : α) : FailsIn P (pure a : Action ε σ α) s := failsIn_of_ok rfl

@[simp] theorem failsIn_fail {e : ε} : FailsIn P (fail e : Action ε σ α) s ↔ P e := by
  simp [FailsIn]

@[simp] theorem failsIn_read (f : σ → α) : FailsIn P (read f : Action ε σ α) s := failsIn_of_ok rfl

@[simp] theorem failsIn_lift {x : Except ε α} :
    FailsIn P (lift x : Action ε σ α) s ↔ ∀ e, x = .error e → P e := by
  simp [FailsIn]

@[simp] theorem failsIn_guard {b : Bool} {e : ε} :
    FailsIn P (guard b e : Action ε σ Unit) s ↔ (b = false → P e) := by
  cases b <;> simp [FailsIn]

theorem failsIn_write {f : σ → Except ε σ} :
    FailsIn P (write f) s ↔ ∀ e, f s = .error e → P e := by
  unfold FailsIn write
  cases f s <;> simp

/-- A sequence fails with its first part, or with its second where the first returns. -/
theorem failsIn_bind {x : Action ε σ α} {f : α → Action ε σ β} :
    FailsIn P (x >>= f) s ↔ FailsIn P x s ∧ ∀ a t, x s = (.ok a, t) → FailsIn P (f a) t := by
  constructor
  · intro h
    exact ⟨fun e t he => h e t (bind_eq_error.2 (.inl he)),
      fun a t ha e t' he => h e t' (bind_eq_error.2 (.inr ⟨a, t, ha, he⟩))⟩
  · rintro ⟨hx, hf⟩ e t he
    rcases bind_eq_error.1 he with he | ⟨a, m, ha, he⟩
    · exact hx e t he
    · exact hf a m ha e t he

theorem failsIn_guard_bind {b : Bool} {e : ε} {f : Unit → Action ε σ β} :
    FailsIn P (guard b e >>= f) s ↔ (b = false → P e) ∧ (b = true → FailsIn P (f ()) s) := by
  rw [failsIn_bind, failsIn_guard]
  cases b
  · simp
  · simpa using ⟨fun h => h (), fun h _ => h⟩

theorem failsIn_lift_bind {x : Except ε α} {f : α → Action ε σ β} :
    FailsIn P (lift x >>= f) s ↔
      (∀ e, x = .error e → P e) ∧ ∀ a, x = .ok a → FailsIn P (f a) s := by
  rw [failsIn_bind, failsIn_lift]
  simp

@[simp] theorem failsIn_transaction {x : Action ε σ α} :
    FailsIn P (transaction x) s ↔ FailsIn P x s := by
  unfold FailsIn transaction
  rcases x s with ⟨_ | a, t⟩ <;> simp

end FailsIn

end Action

end Common
