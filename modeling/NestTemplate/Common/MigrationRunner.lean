import Mathlib.Data.List.Nodup
import NestTemplate.Common.Run

/-!
# Migrations, carried out act by act

A `Migration` has statements that apply it and statements that revert it. A
runner logs the names of those it has applied. It performs its acts one after
the other, stops at the first that fails, and can be stopped before any of them.

* `Ladder`: what the states look like in which the first `k` migrations are
  applied; `Ladder.advance_upActs` and `Ladder.advance_downActs` climb up and down.
* `Blocked.advance_upActs`, `Blocked.advance_downActs`: a state in which the
  statements of a migration fail stays one, and the migration stays unlogged.
* `Ladder.resumes_iff`: after a stop, applying what is left goes through exactly
  if the migration that was under way can be started over.
-/

namespace Common

/-! ## Migrations -/

/-- What applies a change, under its name, and what reverts it. -/
structure Migration (α : Type*) where
  name : String
  up : List α
  down : List α

/-- A state, and the names of the migrations applied to it. -/
structure Logged (σ : Type*) where
  state : σ
  log : List String

/-- A single act of the runner. -/
inductive Act (α : Type*) where
  | perform (a : α)
  | log (name : String)
  | unlog (name : String)
  /-- The log goes. -/
  | clear

namespace Migration

variable {σ α : Type*}

/-- Its statements, then its name. -/
def upActs (m : Migration α) : List (Act α) := m.up.map .perform ++ [.log m.name]

def downActs (m : Migration α) : List (Act α) := m.down.map .perform ++ [.unlog m.name]

/-- The migrations that are not logged, in order. -/
def pending (ms : List (Migration α)) (s : Logged σ) : List (Migration α) :=
  ms.filter (·.name ∉ s.log)

/-- The migrations that are logged, in order. -/
def executed (ms : List (Migration α)) (s : Logged σ) : List (Migration α) :=
  ms.filter (·.name ∈ s.log)

/-- One more act, after the statements `as` of the migration under way. -/
def proceed (as : List α) : Act α → List α
  | .perform a => as ++ [a]
  | _ => []

/-- The statements of the migration under way: those after the last entry of the log. -/
def underWay (acts : List (Act α)) : List α := acts.foldl proceed []

end Migration

variable {σ α : Type*}

/-- The state after an act, unless it fails. -/
def Act.exec (exec : σ → α → Option σ) (s : Logged σ) : Act α → Option (Logged σ)
  | .perform a => (exec s.state a).map fun st => { s with state := st }
  | .log name => if name ∈ s.log then none else some { s with log := s.log ++ [name] }
  | .unlog name => some { s with log := s.log.filter (· ≠ name) }
  | .clear => some { s with log := [] }

variable {exec : σ → α → Option σ} {ms : List (Migration α)} {s : Logged σ}

namespace Act

theorem runAll_perform (as : List α) : runAll (Act.exec exec) s (as.map .perform) =
    (runAll exec s.state as).map fun st => { s with state := st } := by
  induction as generalizing s with
  | nil => rfl
  | cons a as ih =>
    rw [List.map_cons, runAll_cons, runAll_cons]
    cases h : exec s.state a with
    | none => simp [Act.exec, h]
    | some st => simp [Act.exec, h, ih]

/-- Statements leave the log alone. -/
theorem advance_perform (as : List α) : (advance (Act.exec exec) s (as.map .perform)).1.log = s.log :=
  advance_invariant (P := fun t : Logged σ => t.log = s.log) (fun e he t t' ht h => by
    obtain ⟨a, -, rfl⟩ := List.mem_map.mp he
    obtain ⟨st, -, rfl⟩ := Option.map_eq_some_iff.mp h
    exact ht) rfl

end Act

/-! ## Up and down the ladder -/

/-- `R k` holds of the states in which exactly the first `k` migrations are applied. -/
structure Ladder (exec : σ → α → Option σ) (ms : List (Migration α)) (R : ℕ → σ → Prop) : Prop where
  names : (ms.map (·.name)).Nodup
  up : ∀ k (h : k < ms.length) st, R k st → ∃ st', runAll exec st ms[k].up = some st' ∧ R (k + 1) st'

/-- The first `k` migrations are applied and logged. -/
structure AtStep (ms : List (Migration α)) (R : ℕ → σ → Prop) (k : ℕ) (s : Logged σ) : Prop where
  le : k ≤ ms.length
  state : R k s.state
  log : s.log = (ms.take k).map (·.name)

variable {R : ℕ → σ → Prop} {k : ℕ}

theorem AtStep.mem_log (h : AtStep ms R k s) {m : Migration α} (hm : m ∈ ms.take k) :
    m.name ∈ s.log := by
  rw [h.log]
  exact List.mem_map_of_mem hm

theorem AtStep.notMem_log (hn : (ms.map (·.name)).Nodup) (h : AtStep ms R k s) {m : Migration α}
    (hm : m ∈ ms.drop k) : m.name ∉ s.log := by
  rw [← List.take_append_drop k ms, List.map_append] at hn
  intro hmem
  rw [h.log] at hmem
  exact (List.nodup_append.mp hn).2.2 _ hmem _ (List.mem_map_of_mem hm) rfl

theorem AtStep.executed_eq (hn : (ms.map (·.name)).Nodup) (h : AtStep ms R k s) :
    Migration.executed ms s = ms.take k := by
  unfold Migration.executed
  conv_lhs => rw [← List.take_append_drop k ms]
  rw [List.filter_append, List.filter_eq_self.mpr, List.filter_eq_nil_iff.mpr, List.append_nil]
  · intro m hm
    simpa using h.notMem_log hn hm
  · intro m hm
    simpa using h.mem_log hm

theorem AtStep.pending_eq (hn : (ms.map (·.name)).Nodup) (h : AtStep ms R k s) :
    Migration.pending ms s = ms.drop k := by
  unfold Migration.pending
  conv_lhs => rw [← List.take_append_drop k ms]
  rw [List.filter_append, List.filter_eq_nil_iff.mpr, List.filter_eq_self.mpr, List.nil_append]
  · intro m hm
    simpa using h.notMem_log hn hm
  · intro m hm
    simpa using h.mem_log hm

/-- One migration up. -/
theorem Ladder.runAll_upActs (hl : Ladder exec ms R) (h : AtStep ms R k s) (hk : k < ms.length) :
    ∃ s', runAll (Act.exec exec) s ms[k].upActs = some s' ∧ AtStep ms R (k + 1) s' := by
  obtain ⟨st, hst, hR⟩ := hl.up k hk s.state h.state
  have hfresh : ms[k].name ∉ s.log :=
    h.notMem_log hl.names (List.mem_drop_iff_getElem.mpr ⟨0, by simpa using hk, by simp⟩)
  refine ⟨{ state := st, log := s.log ++ [ms[k].name] }, ?_, hk, hR, ?_⟩
  · rw [Migration.upActs, runAll_append, Act.runAll_perform, hst]
    simp [Act.exec, hfresh]
  · rw [List.take_add_one, List.map_append, h.log, List.getElem?_eq_getElem hk]
    rfl

/-- From any step up to a later one. -/
theorem Ladder.runAll_flatMap (hl : Ladder exec ms R) {i : ℕ} (hi : i ≤ ms.length)
    (h : AtStep ms R k s) (hki : k ≤ i) :
    ∃ s', runAll (Act.exec exec) s (((ms.take i).drop k).flatMap Migration.upActs) = some s' ∧
      AtStep ms R i s' := by
  induction i with
  | zero =>
    obtain rfl : k = 0 := by omega
    exact ⟨s, by simp, h⟩
  | succ i ih =>
    by_cases hk : k = i + 1
    · subst hk
      refine ⟨s, ?_, h⟩
      rw [List.drop_eq_nil_of_le (List.length_take_le _ _)]
      rfl
    · obtain ⟨m, hm, hat⟩ := ih (by omega) (by omega)
      obtain ⟨t, ht, hat'⟩ := hl.runAll_upActs hat (by omega)
      refine ⟨t, ?_, hat'⟩
      have hi' : i < ms.length := by omega
      have hlen : k ≤ (ms.take i).length := by rw [List.length_take]; omega
      rw [List.take_add_one, List.getElem?_eq_getElem hi', List.drop_append_of_le_length hlen,
        List.flatMap_append, runAll_append, hm]
      simpa using ht

/-- All pending migrations go through. -/
theorem Ladder.advance_upActs (hl : Ladder exec ms R) (h : AtStep ms R k s) :
    ∃ s', advance (Act.exec exec) s ((Migration.pending ms s).flatMap Migration.upActs) = (s', true) ∧
      AtStep ms R ms.length s' := by
  obtain ⟨s', hs', hat⟩ := hl.runAll_flatMap (Nat.le_refl _) h h.le
  rw [List.take_length] at hs'
  rw [h.pending_eq hl.names]
  exact ⟨s', advance_of_runAll hs', hat⟩

/-- One migration down. -/
theorem Ladder.runAll_downActs (hl : Ladder exec ms R) (hk : k < ms.length)
    (hdown : ∀ st, R (k + 1) st → ∃ st', runAll exec st ms[k].down = some st' ∧ R k st')
    (h : AtStep ms R (k + 1) s) :
    ∃ s', runAll (Act.exec exec) s ms[k].downActs = some s' ∧ AtStep ms R k s' := by
  obtain ⟨st, hst, hR⟩ := hdown s.state h.state
  have hlog : s.log = (ms.take k).map (·.name) ++ [ms[k].name] := by
    rw [h.log, List.take_add_one, List.getElem?_eq_getElem hk, List.map_append]
    rfl
  have hfresh : ms[k].name ∉ (ms.take k).map (·.name) := by
    have hn := hl.names
    rw [← List.take_append_drop (k + 1) ms, List.map_append, ← h.log, hlog] at hn
    have hdisj := (List.nodup_append.mp (List.nodup_append.mp hn).1).2.2
    exact fun hmem => hdisj _ hmem _ List.mem_cons_self rfl
  have hfilter : s.log.filter (· ≠ ms[k].name) = (ms.take k).map (·.name) := by
    rw [hlog, List.filter_append, List.filter_eq_self.mpr]
    · simp
    · intro n hn
      have : n ≠ ms[k].name := fun e => hfresh (e ▸ hn)
      simpa using this
  refine ⟨{ state := st, log := (ms.take k).map (·.name) }, ?_, by omega, hR, rfl⟩
  rw [Migration.downActs, runAll_append, Act.runAll_perform, hst, ← hfilter]
  rfl

/-- The last `n` of the applied migrations go. -/
theorem Ladder.advance_downActs (hl : Ladder exec ms R)
    (hdown : ∀ k (h : k < ms.length) st, R (k + 1) st →
      ∃ st', runAll exec st ms[k].down = some st' ∧ R k st')
    (h : AtStep ms R k s) (n : ℕ) :
    ∃ s', advance (Act.exec exec) s
        (((Migration.executed ms s).reverse.take n).flatMap Migration.downActs) = (s', true) ∧
      AtStep ms R (k - n) s' := by
  rw [h.executed_eq hl.names]
  suffices ∃ s', runAll (Act.exec exec) s
      (((ms.take k).reverse.take n).flatMap Migration.downActs) = some s' ∧
      AtStep ms R (k - n) s' by
    obtain ⟨s', hs', hat⟩ := this
    exact ⟨s', advance_of_runAll hs', hat⟩
  induction n generalizing k s with
  | zero => exact ⟨s, by simp, h⟩
  | succ n ih =>
    cases k with
    | zero => exact ⟨s, by simp, by simpa using h⟩
    | succ k =>
      have hk : k < ms.length := h.le
      obtain ⟨m, hm, hat⟩ := hl.runAll_downActs hk (hdown k hk) h
      obtain ⟨s', hs', hat'⟩ := ih hat
      refine ⟨s', ?_, by simpa using hat'⟩
      have hlast : ms.take (k + 1) = ms.take k ++ [ms[k]] := by
        rw [List.take_add_one, List.getElem?_eq_getElem hk]
        rfl
      rw [hlast, List.reverse_append, List.reverse_singleton, List.singleton_append,
        List.take_succ_cons, List.flatMap_cons, runAll_append, hm]
      exact hs'

/-! ## Migrations that cannot be started over -/

/-- In a state that meets `P` the statements of `m` fail, and only reverting `m` could change
    that. -/
structure Blocked (exec : σ → α → Option σ) (ms : List (Migration α)) (m : Migration α)
    (P : σ → Prop) : Prop where
  names : (ms.map (·.name)).Nodup
  mem : m ∈ ms
  fails : ∀ st, P st → runAll exec st m.up = none
  up : ∀ m' ∈ ms, ∀ a ∈ m'.up, ∀ st st', P st → exec st a = some st' → P st'
  down : ∀ m' ∈ ms, m'.name ≠ m.name → ∀ a ∈ m'.down, ∀ st st', P st → exec st a = some st' → P st'

variable {m : Migration α} {P : σ → Prop}

/-- A state that meets `P`, with `m` not logged. -/
def Stuck (m : Migration α) (P : σ → Prop) (s : Logged σ) : Prop := P s.state ∧ m.name ∉ s.log

/-- Statements that keep `P`. -/
theorem Stuck.advance_perform {as : List α}
    (has : ∀ a ∈ as, ∀ st st', P st → exec st a = some st' → P st') (h : Stuck m P s) :
    Stuck m P (advance (Act.exec exec) s (as.map .perform)).1 := by
  constructor
  · refine advance_invariant (P := fun t : Logged σ => P t.state) ?_ h.1
    intro e he t t' ht hex
    obtain ⟨a, ha, rfl⟩ := List.mem_map.mp he
    obtain ⟨st, hst, rfl⟩ := Option.map_eq_some_iff.mp hex
    exact has a ha _ _ ht hst
  · rw [Act.advance_perform]
    exact h.2

/-- Its statements fail before its name is logged. -/
theorem Blocked.advance_own (hb : Blocked exec ms m P) (h : Stuck m P s) (n : ℕ) :
    Stuck m P (advance (Act.exec exec) s (m.upActs.take n)).1 ∧
      (m.up.length < n → (advance (Act.exec exec) s (m.upActs.take n)).2 = false) := by
  have hkeep : ∀ as : List α, (∀ a ∈ as, a ∈ m.up) →
      Stuck m P (advance (Act.exec exec) s (as.map .perform)).1 := fun as has =>
    h.advance_perform fun a ha => hb.up m hb.mem a (has a ha)
  by_cases hn : n ≤ m.up.length
  · rw [Migration.upActs, List.take_append_of_le_length (by simpa using hn), ← List.map_take]
    refine ⟨hkeep _ fun a => List.mem_of_mem_take, fun h => absurd h (by omega)⟩
  · have hall : m.upActs.take n = m.upActs := by
      refine List.take_of_length_le ?_
      simp [Migration.upActs]
      omega
    have hfail : (advance (Act.exec exec) s (m.up.map .perform)).2 = false := by
      rw [advance_snd, Act.runAll_perform, hb.fails _ h.1]
      rfl
    rw [hall, Migration.upActs, advance_append, hfail]
    exact ⟨hkeep _ fun _ => id, fun _ => hfail⟩

/-- Another migration's acts. -/
theorem Blocked.advance_other {acts : List (Act α)} (h : Stuck m P s)
    (hacts : ∀ e ∈ acts, (∃ a, e = .perform a ∧ ∀ st st', P st → exec st a = some st' → P st') ∨
      (∃ n, e = .log n ∧ n ≠ m.name) ∨ ∃ n, e = .unlog n) :
    Stuck m P (advance (Act.exec exec) s acts).1 := by
  refine advance_invariant ?_ h
  intro e he t t' ht hex
  rcases hacts e he with ⟨a, rfl, ha⟩ | ⟨n, rfl, hn⟩ | ⟨n, rfl⟩
  · obtain ⟨st, hst, rfl⟩ := Option.map_eq_some_iff.mp hex
    exact ⟨ha _ _ ht.1 hst, ht.2⟩
  · rw [Act.exec] at hex
    split at hex
    · cases hex
    · cases hex
      refine ⟨ht.1, fun hmem => ?_⟩
      cases List.mem_append.mp hmem with
      | inl hmem => exact ht.2 hmem
      | inr hmem => exact hn (List.mem_singleton.mp hmem).symm
  · cases hex
    exact ⟨ht.1, fun hmem => ht.2 (List.mem_of_mem_filter hmem)⟩

/-- What is carried out of any migrations, up to any act. -/
theorem Blocked.advance_flatMap (hb : Blocked exec ms m P) {L : List (Migration α)}
    (hL : ∀ m' ∈ L, m' ∈ ms) (h : Stuck m P s) (n : ℕ) :
    Stuck m P (advance (Act.exec exec) s ((L.flatMap Migration.upActs).take n)).1 ∧
      (m ∈ L → (L.flatMap Migration.upActs).length ≤ n →
        (advance (Act.exec exec) s ((L.flatMap Migration.upActs).take n)).2 = false) := by
  induction L generalizing s n with
  | nil => exact ⟨by simpa [advance] using h, nofun⟩
  | cons m' L ih =>
    have hm' : m' ∈ ms := hL m' List.mem_cons_self
    have ih := fun s h n => ih (fun m hm => hL m (List.mem_cons_of_mem _ hm)) (s := s) h n
    rw [List.flatMap_cons, List.take_append, advance_append, List.length_append]
    have hlen : m'.upActs.length = m'.up.length + 1 := by simp [Migration.upActs]
    by_cases heq : m' = m
    · subst heq
      obtain ⟨hstuck, hfail⟩ := hb.advance_own h n
      by_cases hn : m'.up.length < n
      · rw [if_neg (by simp [hfail hn])]
        exact ⟨hstuck, fun _ _ => hfail hn⟩
      · have hnil : n - m'.upActs.length = 0 := by omega
        simp only [hnil, List.take_zero, advance]
        refine ⟨?_, fun _ hle => absurd hle (by omega)⟩
        split
        · exact hstuck
        · exact hstuck
    · have hname : m'.name ≠ m.name := fun e =>
        heq (List.inj_on_of_nodup_map hb.names hm' hb.mem e)
      have hstuck : Stuck m P (advance (Act.exec exec) s (m'.upActs.take n)).1 := by
        refine Blocked.advance_other h fun e he => ?_
        have he := List.mem_of_mem_take he
        cases List.mem_append.mp he with
        | inl he =>
          obtain ⟨a, ha, rfl⟩ := List.mem_map.mp he
          exact .inl ⟨a, rfl, hb.up m' hm' a ha⟩
        | inr he => exact .inr (.inl ⟨m'.name, List.mem_singleton.mp he, hname⟩)
      split
      · obtain ⟨hstuck', hfail⟩ := ih _ hstuck (n - m'.upActs.length)
        refine ⟨hstuck', fun hmem hle => hfail ?_ (by omega)⟩
        exact (List.mem_cons.mp hmem).resolve_left (Ne.symm heq)
      · rename_i hstop
        exact ⟨hstuck, fun _ _ => by simpa using hstop⟩

/-- Applying migrations, stopped anywhere, leaves `m` stuck and never goes through. -/
theorem Blocked.advance_upActs (hb : Blocked exec ms m P) (h : Stuck m P s) (n : ℕ) :
    Stuck m P (advance (Act.exec exec) s
        (((Migration.pending ms s).flatMap Migration.upActs).take n)).1 ∧
      (advance (Act.exec exec) s ((Migration.pending ms s).flatMap Migration.upActs)).2 = false := by
  have hsub : ∀ m' ∈ Migration.pending ms s, m' ∈ ms := fun m' => List.mem_of_mem_filter
  refine ⟨(hb.advance_flatMap hsub h n).1, ?_⟩
  have hmem : m ∈ Migration.pending ms s := List.mem_filter.mpr ⟨hb.mem, by simpa using h.2⟩
  have := (hb.advance_flatMap hsub h _).2 hmem (Nat.le_refl _)
  rwa [List.take_length] at this

/-- Reverting migrations, stopped anywhere, leaves `m` stuck. -/
theorem Blocked.advance_downActs (hb : Blocked exec ms m P) (h : Stuck m P s)
    {L : List (Migration α)} (hL : ∀ m' ∈ L, m' ∈ Migration.executed ms s) (n : ℕ) :
    Stuck m P (advance (Act.exec exec) s ((L.flatMap Migration.downActs).take n)).1 := by
  refine Blocked.advance_other h fun e he => ?_
  obtain ⟨m', hm', he⟩ := List.mem_flatMap.mp (List.mem_of_mem_take he)
  obtain ⟨hms, hlog⟩ := List.mem_filter.mp (hL m' hm')
  have hname : m'.name ≠ m.name := fun e => h.2 (e ▸ of_decide_eq_true hlog)
  cases List.mem_append.mp he with
  | inl he =>
    obtain ⟨a, ha, rfl⟩ := List.mem_map.mp he
    exact .inl ⟨a, rfl, hb.down m' hms hname a ha⟩
  | inr he => exact .inr (.inr ⟨m'.name, List.mem_singleton.mp he⟩)

/-! ## Starting over -/

/-- The beginning of the acts of `L` ends within the statements of one migration. -/
theorem Migration.take_flatMap (L : List (Migration α)) (n : ℕ) :
    ∃ i j, i ≤ L.length ∧ (i = L.length → j = 0) ∧
      (L.flatMap upActs).take n = (L.take i).flatMap upActs ++
        ((((L[i]?.map (·.up)).getD []).take j).map .perform) := by
  induction L generalizing n with
  | nil => exact ⟨0, 0, by simp, fun _ => rfl, by simp⟩
  | cons m L ih =>
    have hlen : m.upActs.length = m.up.length + 1 := by simp [upActs]
    rw [List.flatMap_cons, List.take_append]
    by_cases hn : n ≤ m.up.length
    · have hnil : n - m.upActs.length = 0 := by omega
      refine ⟨0, n, by simp, fun h => by simp at h, ?_⟩
      rw [hnil, List.take_zero, List.append_nil, upActs,
        List.take_append_of_le_length (by simpa using hn), ← List.map_take]
      rfl
    · obtain ⟨i, j, hi, hj, hrest⟩ := ih (n - m.upActs.length)
      refine ⟨i + 1, j, by simpa using hi, fun h => hj (by simpa using h), ?_⟩
      rw [List.take_of_length_le (by omega), hrest]
      simp

theorem Migration.foldl_proceed (as bs : List α) :
    (bs.map Act.perform).foldl proceed as = as ++ bs := by
  induction bs generalizing as with
  | nil => simp
  | cons b bs ih =>
    rw [List.map_cons, List.foldl_cons, ih]
    simp [proceed]

theorem Migration.underWay_flatMap (L : List (Migration α)) (as : List α) :
    underWay (L.flatMap upActs ++ as.map .perform) = as := by
  have hnil : (L.flatMap upActs).foldl proceed ([] : List α) = [] := by
    induction L with
    | nil => rfl
    | cons m L ih =>
      rw [List.flatMap_cons, List.foldl_append, upActs, List.foldl_append, foldl_proceed]
      exact ih
  rw [underWay, List.foldl_append, hnil, foldl_proceed, List.nil_append]

/-- Statements that can be carried out again, and statements that block those of their
    migration. -/
structure Restarts (exec : σ → α → Option σ) (ms : List (Migration α)) (R : ℕ → σ → Prop)
    (again : α → Prop) : Prop where
  starts : ∀ k (h : k < ms.length) j st st', R k st → runAll exec st (ms[k].up.take j) = some st' →
    (∀ a ∈ ms[k].up.take j, again a) → runAll exec st' ms[k].up = runAll exec st ms[k].up
  blocks : ∀ k (h : k < ms.length) j st st', R k st → runAll exec st (ms[k].up.take j) = some st' →
    (∃ a ∈ ms[k].up.take j, ¬ again a) → runAll exec st' ms[k].up = none

/-- Where applying that was stopped before any of its acts stands: some migrations are finished,
    and of the next one the first statements are done. -/
theorem Ladder.stopped (hl : Ladder exec ms R) (h : AtStep ms R k s) (n : ℕ) :
    ∃ i as st, AtStep ms R i { s with state := st, log := (ms.take i).map (·.name) } ∧
      (∀ hi : i < ms.length, ∃ j, as = ms[i].up.take j) ∧ (i = ms.length → as = []) ∧
      Migration.underWay (((Migration.pending ms s).flatMap Migration.upActs).take n) = as ∧
      ∃ st', runAll exec st as = some st' ∧
        (advance (Act.exec exec) s
          (((Migration.pending ms s).flatMap Migration.upActs).take n)).1 =
            { state := st', log := (ms.take i).map (·.name) } := by
  rw [h.pending_eq hl.names]
  obtain ⟨i, j, hi, hj, htake⟩ := Migration.take_flatMap (ms.drop k) n
  rw [List.length_drop] at hi hj
  have hki : k + i ≤ ms.length := by have := h.le; omega
  obtain ⟨s₁, hs₁, hat⟩ := hl.runAll_flatMap hki h (by omega)
  have hdrop : (ms.take (k + i)).drop k = (ms.drop k).take i := by
    rw [List.drop_take]
    congr 1
    omega
  rw [hdrop] at hs₁
  obtain ⟨st₁, log₁⟩ := s₁
  obtain rfl : log₁ = (ms.take (k + i)).map (·.name) := hat.log
  rw [htake, Migration.underWay_flatMap, advance_append, advance_of_runAll hs₁, if_pos rfl]
  by_cases hlast : k + i = ms.length
  · obtain rfl : j = 0 := hj (by omega)
    refine ⟨k + i, [], st₁, hat, fun hlt => absurd hlt (by omega), fun _ => rfl, ?_, st₁, rfl, ?_⟩
    · simp
    · simp [advance]
  · have hlt : k + i < ms.length := by omega
    have hget : (ms.drop k)[i]? = some ms[k + i] := by
      rw [List.getElem?_drop, List.getElem?_eq_getElem hlt]
    obtain ⟨st', hst', -⟩ := hl.up (k + i) hlt st₁ hat.state
    obtain ⟨st, hst⟩ := runAll_take hst' j
    rw [hget, Option.map_some, Option.getD_some]
    refine ⟨k + i, ms[k + i].up.take j, st₁, hat, fun _ => ⟨j, rfl⟩, fun h => absurd h hlast, rfl,
      st, hst, ?_⟩
    rw [advance_of_runAll]
    rw [Act.runAll_perform, hst]
    rfl

/-- After a stop, applying again goes through exactly if all that was done of the migration under
    way can be done again, and then all migrations are applied. -/
theorem Ladder.resumes_iff (hl : Ladder exec ms R) {again : α → Prop}
    (hr : Restarts exec ms R again) (h : AtStep ms R k s) (n : ℕ) {t : Logged σ}
    (ht : (advance (Act.exec exec) s
      (((Migration.pending ms s).flatMap Migration.upActs).take n)).1 = t) :
    ((advance (Act.exec exec) t ((Migration.pending ms t).flatMap Migration.upActs)).2 = true ↔
      ∀ a ∈ Migration.underWay (((Migration.pending ms s).flatMap Migration.upActs).take n),
        again a) ∧
    ((advance (Act.exec exec) t ((Migration.pending ms t).flatMap Migration.upActs)).2 = true →
      AtStep ms R ms.length
        (advance (Act.exec exec) t ((Migration.pending ms t).flatMap Migration.upActs)).1) := by
  obtain ⟨i, as, st, hat, has, hlast, hway, st', hst', hstop⟩ := hl.stopped h n
  rw [hway]
  rw [hstop] at ht
  subst ht
  have hpend : Migration.pending ms { state := st', log := (ms.take i).map (·.name) } = ms.drop i :=
    (show _ = Migration.pending ms { state := st, log := (ms.take i).map (·.name) } from rfl).trans
      (hat.pending_eq hl.names)
  rw [hpend]
  obtain ⟨s₂, hs₂, hat₂⟩ := hl.runAll_flatMap (Nat.le_refl _) hat hat.le
  rw [List.take_length] at hs₂
  by_cases hi : i = ms.length
  · obtain rfl : as = [] := hlast hi
    cases hst'
    rw [advance_of_runAll hs₂]
    exact ⟨by simp, fun _ => hat₂⟩
  · have hlt : i < ms.length := by have := hat.le; omega
    obtain ⟨j, rfl⟩ := has hlt
    have hblock : (∃ a ∈ ms[i].up.take j, ¬ again a) → (advance (Act.exec exec)
        { state := st', log := (ms.take i).map (·.name) } ((ms.drop i).flatMap Migration.upActs)).2 =
          false := by
      intro hno
      have hfail := hr.blocks i hlt j _ _ hat.state hst' hno
      rw [List.drop_eq_getElem_cons hlt, List.flatMap_cons, advance_snd, runAll_append,
        Migration.upActs, runAll_append, Act.runAll_perform, hfail]
      rfl
    have hrestart : (∀ a ∈ ms[i].up.take j, again a) → advance (Act.exec exec)
        { state := st', log := (ms.take i).map (·.name) } ((ms.drop i).flatMap Migration.upActs) =
          (s₂, true) := by
      intro hagain
      have hsame := hr.starts i hlt j _ _ hat.state hst' hagain
      refine advance_of_runAll ?_
      rw [List.drop_eq_getElem_cons hlt, List.flatMap_cons, runAll_append, Migration.upActs,
        runAll_append, Act.runAll_perform] at hs₂ ⊢
      rw [hsame]
      exact hs₂
    by_cases hagain : ∀ a ∈ ms[i].up.take j, again a
    · rw [hrestart hagain]
      exact ⟨⟨fun _ => hagain, fun _ => rfl⟩, fun _ => hat₂⟩
    · have hno : ∃ a ∈ ms[i].up.take j, ¬ again a := by simpa using hagain
      rw [hblock hno]
      exact ⟨⟨nofun, fun h => absurd h hagain⟩, nofun⟩

end Common
