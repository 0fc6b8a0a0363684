import NestTemplate.Common.Run
import Mathlib.Data.Set.Basic
import Mathlib.Logic.Function.Basic

/-!
# Transactions at READ COMMITTED

Clients of one database, each with a local state and at most one open
transaction. A statement sees what is committed when it runs, and the writes of
its own transaction; a write waits while another open transaction holds a row it
needs; `commit` makes the writes of a transaction visible.

The pending writes are a function of the local state, so there is no transaction
without a client that is in the middle of it.

* `Client.run_alone`: what a client does while nobody else writes.
* `Client.Exclusive`: no two open transactions hold the same row.
* `local_invariant`: what the clients and the committed rows promise each other.
* `SoleClaim.run`: the rule for a row that clients claim by deleting it. If every
  claim finds the row there, one client wins at most.
-/

namespace Common.ReadCommitted

variable {σ κ ℓ α τ : Type}

/-- The effect of a statement, and the rows it locks until its transaction ends. -/
structure Write (σ κ : Type) where
  apply : σ → σ
  locks : Set κ

/-- One step of a client, with its next local state. -/
inductive Move (σ κ ℓ : Type) where
  /-- A statement that writes nothing, or none at all. -/
  | look (next : ℓ)
  | write (w : Write σ κ) (next : ℓ)
  | commit (next : ℓ)
  | rollback (next : ℓ)

namespace Move

def next : Move σ κ ℓ → ℓ
  | look l | write _ l | commit l | rollback l => l

/-- The pending writes after the step. -/
def pending (ws : List (Write σ κ)) : Move σ κ ℓ → List (Write σ κ)
  | look _ => ws
  | write w _ => ws ++ [w]
  | commit _ | rollback _ => []

/-- The committed rows after the step of a client that sees `view`. -/
def committed (s view : σ) : Move σ κ ℓ → σ
  | commit _ => view
  | look _ | write _ _ | rollback _ => s

end Move

/-- A kind of client: the writes pending in a local state, and what the state does under a label. -/
structure Client (σ κ ℓ α : Type) where
  writes : ℓ → List (Write σ κ)
  move : ℓ → α → σ → Option (Move σ κ ℓ)
  writes_next : ∀ l a view m, move l a view = some m → writes m.next = m.pending (writes l)

/-- The committed rows and the local state of every client. -/
structure State (σ τ ℓ : Type) where
  committed : σ
  clients : τ → ℓ

/-- Several writes, one after the other. -/
def applyAll (ws : List (Write σ κ)) (s : σ) : σ := ws.foldl (fun s w => w.apply s) s

/-- What a statement of the client `t` sees. -/
def Client.view (c : Client σ κ ℓ α) (st : State σ τ ℓ) (t : τ) : σ :=
  applyAll (c.writes (st.clients t)) st.committed

/-- Another open transaction holds a row that `w` needs. -/
def Client.Waits (c : Client σ κ ℓ α) (st : State σ τ ℓ) (t : τ) (w : Write σ κ) : Prop :=
  ∃ t' ≠ t, ∃ w' ∈ c.writes (st.clients t'), ∃ k ∈ w.locks, k ∈ w'.locks

/-- The client `t` moves under the label `a`. -/
inductive Step [DecidableEq τ] (c : Client σ κ ℓ α) (st : State σ τ ℓ) :
    τ × α → State σ τ ℓ → Prop
  | mk {t : τ} {a : α} {m : Move σ κ ℓ} :
      c.move (st.clients t) a (c.view st t) = some m →
      (∀ w l, m = .write w l → ¬ c.Waits st t w) →
      Step c st (t, a)
        { committed := m.committed st.committed (c.view st t)
          clients := Function.update st.clients t m.next }

theorem Client.view_of_nil {c : Client σ κ ℓ α} {st : State σ τ ℓ} {t : τ}
    (h : c.writes (st.clients t) = []) : c.view st t = st.committed := by
  rw [view, h]; rfl

/-- Where no other transaction has written, nothing waits. -/
theorem Client.not_waits {c : Client σ κ ℓ α} {st : State σ τ ℓ} {t : τ}
    (h : ∀ t' ≠ t, c.writes (st.clients t') = []) (w : Write σ κ) : ¬ c.Waits st t w := by
  rintro ⟨t', ht', w', hw', -⟩
  rw [h t' ht'] at hw'
  cases hw'

/-- What every write keeps, all of them keep. -/
theorem applyAll_keeps {Q : σ → Prop} {ws : List (Write σ κ)}
    (h : ∀ w ∈ ws, ∀ s, Q s → Q (w.apply s)) {s : σ} (hs : Q s) : Q (applyAll ws s) := by
  induction ws generalizing s with
  | nil => exact hs
  | cons w ws ih =>
    exact ih (fun w' hw' => h w' (List.mem_cons_of_mem w hw'))
      (h w (List.mem_cons_self ..) s hs)

/-! ## One client at a time -/

/-- The local state and the committed rows after a client has moved under `as`, while nobody else
    has written anything. -/
def Client.runAlone (c : Client σ κ ℓ α) : List α → ℓ × σ → Option (ℓ × σ)
  | [], x => some x
  | a :: as, (l, s) =>
    match c.move l a (applyAll (c.writes l) s) with
    | some m => c.runAlone as (m.next, m.committed s (applyAll (c.writes l) s))
    | none => none

theorem Client.runAlone_cons {c : Client σ κ ℓ α} {a : α} {l : ℓ} {s : σ} {m : Move σ κ ℓ}
    (h : c.move l a (applyAll (c.writes l) s) = some m) (as : List α) :
    c.runAlone (a :: as) (l, s) =
      c.runAlone as (m.next, m.committed s (applyAll (c.writes l) s)) := by
  rw [runAlone, h]

theorem Client.runAlone_append {c : Client σ κ ℓ α} {as bs : List α} {x y : ℓ × σ}
    (h : c.runAlone as x = some y) : c.runAlone (as ++ bs) x = c.runAlone bs y := by
  induction as generalizing x with
  | nil => cases h; rfl
  | cons a as ih =>
    rw [runAlone] at h
    rw [List.cons_append, runAlone]
    split at h
    · exact ih h
    · cases h

section Alone

variable [DecidableEq τ] {c : Client σ κ ℓ α} {calls : τ → ℓ} {t : τ} {s : σ}
  {l : ℓ}

theorem Step.unique (st : State σ τ ℓ) (e : τ × α) (s₁ s₂ : State σ τ ℓ) (h₁ : Step c st e s₁)
    (h₂ : Step c st e s₂) : s₁ = s₂ := by
  obtain ⟨hm, -⟩ := h₁
  obtain ⟨hm', -⟩ := h₂
  cases hm.symm.trans hm'
  rfl

theorem Client.step_alone {a : α} {m : Move σ κ ℓ} (hl : calls t = l)
    (hquiet : ∀ t' ≠ t, c.writes (calls t') = [])
    (hm : c.move l a (applyAll (c.writes l) s) = some m) :
    Step c ⟨s, calls⟩ (t, a)
      ⟨m.committed s (applyAll (c.writes l) s), Function.update calls t m.next⟩ := by
  subst hl
  exact .mk hm fun w _ _ => c.not_waits hquiet w

/-- What a client does alone is a run of the system that leaves the others where they are. -/
theorem Client.run_while {as : List α} {l' : ℓ} {s' : σ} (hl : calls t = l)
    (hquiet : ∀ t' ≠ t, c.writes (calls t') = []) (h : c.runAlone as (l, s) = some (l', s')) :
    ∃ calls', Run (Step c) ⟨s, calls⟩ (as.map (Prod.mk t)) ⟨s', calls'⟩ ∧ calls' t = l' ∧
      ∀ t' ≠ t, calls' t' = calls t' := by
  induction as generalizing calls l s with
  | nil =>
    cases h
    exact ⟨calls, .nil _, hl, fun _ _ => rfl⟩
  | cons a as ih =>
    unfold runAlone at h
    split at h
    · rename_i m hm
      have hothers : ∀ t' ≠ t, Function.update calls t m.next t' = calls t' :=
        fun t' ht' => Function.update_of_ne ht' ..
      obtain ⟨calls', hrun, ht, hrest⟩ := ih (Function.update_self t m.next calls)
        (fun t' ht' => by rw [hothers t' ht', hquiet t' ht']) h
      exact ⟨calls', .cons (c.step_alone hl hquiet hm) hrun, ht,
        fun t' ht' => (hrest t' ht').trans (hothers t' ht')⟩
    · cases h

/-- No transaction has written anything. -/
def Client.Quiet (c : Client σ κ ℓ α) (calls : τ → ℓ) : Prop := ∀ t, c.writes (calls t) = []

/-- `run_while`, from one point where nothing is pending to another. -/
theorem Client.run_alone {as : List α} {l' : ℓ} {s' : σ} (hquiet : c.Quiet calls)
    (hl : calls t = l) (h : c.runAlone as (l, s) = some (l', s')) (hl' : c.writes l' = []) :
    ∃ calls', Run (Step c) ⟨s, calls⟩ (as.map (Prod.mk t)) ⟨s', calls'⟩ ∧ c.Quiet calls' ∧
      calls' t = l' ∧ ∀ t' ≠ t, calls' t' = calls t' := by
  obtain ⟨calls', hrun, ht, hothers⟩ := c.run_while hl (fun t' _ => hquiet t') h
  refine ⟨calls', hrun, fun t' => ?_, ht, hothers⟩
  by_cases ht' : t' = t
  · rw [ht', ht, hl']
  · rw [hothers t' ht', hquiet t']

end Alone

/-! ## Locks -/

section Locks

variable [DecidableEq τ] {c : Client σ κ ℓ α}

/-- No two open transactions hold the same row. -/
def Client.Exclusive (c : Client σ κ ℓ α) (st : State σ τ ℓ) : Prop :=
  ∀ t t', t ≠ t' → ∀ w ∈ c.writes (st.clients t), ∀ w' ∈ c.writes (st.clients t'),
    ∀ k ∈ w.locks, k ∉ w'.locks

omit [DecidableEq τ] in
theorem Client.exclusive_of_quiet {st : State σ τ ℓ} (h : c.Quiet st.clients) :
    c.Exclusive st := by
  intro t t' _ w hw
  rw [h t] at hw
  cases hw

/-- The pending writes after a step are those from before or, for the client that moved, one that
    did not wait. -/
theorem Step.mem_writes {st st' : State σ τ ℓ} {e : τ × α} (h : Step c st e st') {t : τ}
    {w : Write σ κ} (hw : w ∈ c.writes (st'.clients t)) :
    w ∈ c.writes (st.clients t) ∨ (t = e.1 ∧ ¬ c.Waits st t w) := by
  obtain ⟨hm, hfree⟩ := h
  rename_i u a m
  by_cases ht : t = u
  · subst ht
    have hnext := c.writes_next _ _ _ _ hm
    simp only [Function.update_self] at hw
    rw [hnext] at hw
    cases m with
    | look l => exact .inl hw
    | write w' l =>
      rcases List.mem_append.mp hw with hw | hw
      · exact .inl hw
      · cases List.mem_singleton.mp hw
        exact .inr ⟨rfl, hfree _ l rfl⟩
    | commit l => cases hw
    | rollback l => cases hw
  · simp only [Function.update_of_ne ht] at hw
    exact .inl hw

/-- Every step keeps the locks apart. -/
theorem Step.exclusive {st st' : State σ τ ℓ} {e : τ × α} (h : Step c st e st')
    (hst : c.Exclusive st) : c.Exclusive st' := by
  intro t t' hne w hw w' hw' k hk hk'
  rcases h.mem_writes hw with hold | ⟨rfl, hfree⟩
  · rcases h.mem_writes hw' with hold' | ⟨rfl, hfree⟩
    · exact hst t t' hne w hold w' hold' k hk hk'
    · exact hfree ⟨t, hne, w, hold, k, hk', hk⟩
  · rcases h.mem_writes hw' with hold' | ⟨rfl, -⟩
    · exact hfree ⟨t', hne.symm, w', hold', k, hk, hk'⟩
    · exact hne rfl

end Locks

/-! ## Invariants -/

section Invariants

variable [DecidableEq τ] {c : Client σ κ ℓ α} {P : State σ τ ℓ → τ × α → Prop}
  {Q : σ → Prop} {L : ℓ → Prop}

/-- The committed rows satisfy `Q` and every local state `L`. -/
def Promise (Q : σ → Prop) (L : ℓ → Prop) (st : State σ τ ℓ) : Prop :=
  Q st.committed ∧ ∀ t, L (st.clients t)

/-- A step of a client whose pending writes keep `Q` keeps `Q` of the committed rows. -/
theorem Step.committed {st st' : State σ τ ℓ} {e : τ × α} (h : Step c st e st')
    (hwrite : ∀ w ∈ c.writes (st.clients e.1), ∀ s, Q s → Q (w.apply s))
    (hQ : Q st.committed) : Q st'.committed := by
  obtain ⟨hmove, hfree⟩ := h
  rename_i t a m
  cases m with
  | commit l => exact applyAll_keeps hwrite hQ
  | look l | write w l | rollback l => exact hQ

/-- The local states keep their promise if each move does, under the condition `P` and as long as
    the rows keep theirs; the rows do if the pending writes of such local states do. -/
theorem local_invariant (hwrite : ∀ l, L l → ∀ w ∈ c.writes l, ∀ s, Q s → Q (w.apply s))
    (hmove : ∀ st t a m, P st (t, a) → L (st.clients t) → Q st.committed →
      c.move (st.clients t) a (c.view st t) = some m → L m.next)
    (st : State σ τ ℓ) (e : τ × α) (st' : State σ τ ℓ) (hst : Promise Q L st) (hP : P st e)
    (h : Step c st e st') : Promise Q L st' := by
  refine ⟨h.committed (hwrite _ (hst.2 e.1)) hst.1, fun t' => ?_⟩
  obtain ⟨hm, -⟩ := h
  rename_i t a m
  by_cases ht : t' = t
  · subst ht
    simpa using hmove st t' a m hP (hst.2 t') hst.1 hm
  · simpa [ht] using hst.2 t'

/-- The row `k` is claimed by deleting it in an open transaction, and won by committing that
    transaction. `L` and `Q` are promises as in `local_invariant`. -/
structure SoleClaim (c : Client σ κ ℓ α) (P : State σ τ ℓ → τ × α → Prop) (Q : σ → Prop)
    (L : ℓ → Prop) (k : κ) (present : σ → Prop) (claimed won : ℓ → Prop) : Prop where
  /-- A claim finds the row, and locks it. -/
  claim : ∀ st t a m, P st (t, a) → Promise Q L st →
    c.move (st.clients t) a (c.view st t) = some m → claimed m.next → ¬ claimed (st.clients t) →
      present st.committed ∧ ∃ w l, m = .write w l ∧ k ∈ w.locks
  /-- The lock is held as long as the claim. -/
  holds : ∀ l, L l → claimed l → ∃ w ∈ c.writes l, k ∈ w.locks
  /-- Only a claim wins, by a commit. -/
  win : ∀ l a view m, L l → c.move l a view = some m → won m.next → ¬ won l →
    claimed l ∧ ∃ l', m = .commit l'
  /-- The writes of a claim delete the row. -/
  deletes : ∀ l, L l → claimed l → ∀ s, ¬ present (applyAll (c.writes l) s)
  /-- Nobody inserts the row again. -/
  stays : ∀ l, L l → ∀ w ∈ c.writes l, ∀ s, ¬ present s → ¬ present (w.apply s)

namespace SoleClaim

variable {k : κ} {present : σ → Prop} {claimed won : ℓ → Prop}

/-- One client at most has claimed or won the row, and a won row is gone. -/
def Sole (present : σ → Prop) (claimed won : ℓ → Prop) (st : State σ τ ℓ) : Prop :=
  (∀ t t', claimed (st.clients t) ∨ won (st.clients t) →
    claimed (st.clients t') ∨ won (st.clients t') → t = t') ∧
  ∀ t, won (st.clients t) → ¬ present st.committed

/-- A client that comes to claim or to win the row is the only one. -/
theorem sole_next (hc : SoleClaim c P Q L k present claimed won) {st : State σ τ ℓ} {t : τ}
    {a : α} {m : Move σ κ ℓ} (hP : P st (t, a)) (hst : Promise Q L st)
    (hsole : Sole present claimed won st)
    (hm : c.move (st.clients t) a (c.view st t) = some m)
    (hfree : ∀ w l, m = .write w l → ¬ c.Waits st t w) (hnext : claimed m.next ∨ won m.next)
    {t' : τ} (ht' : claimed (st.clients t') ∨ won (st.clients t')) : t' = t := by
  by_cases hold : claimed (st.clients t) ∨ won (st.clients t)
  · exact hsole.1 t' t ht' hold
  · rw [not_or] at hold
    rcases hnext with hclaim | hwin
    · obtain ⟨hpresent, w, l, rfl, hk⟩ := hc.claim st t a m hP hst hm hclaim hold.1
      by_contra hne
      rcases ht' with hclaimed | hwon
      · obtain ⟨w', hw', hk'⟩ := hc.holds _ (hst.2 t') hclaimed
        exact hfree w l rfl ⟨t', hne, w', hw', k, hk, hk'⟩
      · exact hsole.2 t' hwon hpresent
    · exact absurd (hc.win _ _ _ _ (hst.2 t) hm hwin hold.2).1 hold.1

theorem step (hc : SoleClaim c P Q L k present claimed won) {st st' : State σ τ ℓ} {e : τ × α}
    (hP : P st e) (hst : Promise Q L st) (hsole : Sole present claimed won st)
    (h : Step c st e st') : Sole present claimed won st' := by
  have hgone : ¬ present st.committed → ¬ present st'.committed :=
    h.committed (Q := fun s => ¬ present s) (hc.stays _ (hst.2 e.1))
  obtain ⟨hm, hfree⟩ := h
  rename_i t a m
  constructor
  · intro t₁ t₂ h₁ h₂
    by_cases e₁ : t₁ = t <;> by_cases e₂ : t₂ = t
    · rw [e₁, e₂]
    · subst e₁
      exact (hc.sole_next hP hst hsole hm hfree (by simpa using h₁) (by simpa [e₂] using h₂)).symm
    · subst e₂
      exact hc.sole_next hP hst hsole hm hfree (by simpa using h₂) (by simpa [e₁] using h₁)
    · exact hsole.1 t₁ t₂ (by simpa [e₁] using h₁) (by simpa [e₂] using h₂)
  · intro t' hwon
    by_cases ht : t' = t
    · subst ht
      by_cases hold : won (st.clients t')
      · exact hgone (hsole.2 t' hold)
      · obtain ⟨hclaimed, l, rfl⟩ :=
          hc.win _ _ _ _ (hst.2 t') hm (by simpa using hwon) hold
        exact hc.deletes _ (hst.2 t') hclaimed _
    · exact hgone (hsole.2 t' (by simpa [ht] using hwon))

/-- In a run whose steps meet `P`, from a state where nobody has claimed the row, one client wins
    it at most. -/
theorem run (hc : SoleClaim c P Q L k present claimed won)
    (hstep : ∀ st e st', Promise Q L st → P st e → Step c st e st' → Promise Q L st')
    {st st' : State σ τ ℓ} {es : List (τ × α)} (hrun : Run (Step c) st es st')
    (hP : Along (Step c) P st es) (hst : Promise Q L st)
    (hnone : ∀ t, ¬ claimed (st.clients t) ∧ ¬ won (st.clients t)) {t t' : τ}
    (ht : won (st'.clients t)) (ht' : won (st'.clients t')) : t = t' := by
  have hsole : Sole present claimed won st :=
    ⟨fun t _ h => absurd h (not_or.mpr (hnone t)), fun t h => absurd h (hnone t).2⟩
  have hinv := hrun.invariant_along
    (I := fun st => Promise Q L st ∧ Sole present claimed won st)
    (fun s e s' hI hp h => ⟨hstep s e s' hI.1 hp h, hc.step hp hI.1 hI.2 h⟩) hP ⟨hst, hsole⟩
  exact hinv.2.1 t t' (.inr ht) (.inr ht')

end SoleClaim

end Invariants

end Common.ReadCommitted
