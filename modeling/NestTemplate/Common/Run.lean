import Mathlib.Data.List.Basic

/-!
# Runs of a labelled transition system

`Run step s es t`: from `s` the events `es` lead to `t`, each by one `step`.

* `Run.append_iff`: a run over `es ++ fs` is a run over `es` and one over `fs`.
* `Run.invariant`: what every step preserves, every run preserves.
* `Along`: every event of a run meets a condition on the state before it;
  `Run.invariant_along` is the invariant rule for such runs.
* `runAll`, `checkAlong`: both, computed for a step function.
* `advance`: the events as far as they go, and whether all of them went through.
-/

namespace Common

variable {σ ε : Type*}

/-- From `s` the events `es` lead to `t`. -/
inductive Run (step : σ → ε → σ → Prop) : σ → List ε → σ → Prop
  | nil (s : σ) : Run step s [] s
  | cons {s m t : σ} {e : ε} {es : List ε} :
      step s e m → Run step m es t → Run step s (e :: es) t

namespace Run

variable {step : σ → ε → σ → Prop} {s t : σ}

@[simp] theorem nil_iff : Run step s [] t ↔ t = s :=
  ⟨fun h => by cases h; rfl, by rintro rfl; exact .nil _⟩

theorem cons_iff {e : ε} {es : List ε} :
    Run step s (e :: es) t ↔ ∃ m, step s e m ∧ Run step m es t :=
  ⟨fun h => by cases h with | cons h₁ h₂ => exact ⟨_, h₁, h₂⟩, fun ⟨_, h₁, h₂⟩ => .cons h₁ h₂⟩

theorem append_iff {es fs : List ε} :
    Run step s (es ++ fs) t ↔ ∃ m, Run step s es m ∧ Run step m fs t := by
  induction es generalizing s with
  | nil => simp
  | cons e es ih => simp only [List.cons_append, cons_iff, ih]; aesop

theorem snoc {m : σ} {es : List ε} {e : ε} (h : Run step s es m) (he : step m e t) :
    Run step s (es ++ [e]) t :=
  append_iff.mpr ⟨m, h, .cons he (.nil t)⟩

/-- Where a step has one result, a run has. -/
theorem unique (hdet : ∀ s e t t', step s e t → step s e t' → t = t') {es : List ε} {t' : σ}
    (h : Run step s es t) (h' : Run step s es t') : t = t' := by
  induction h with
  | nil => exact (nil_iff.mp h').symm
  | cons he _ ih =>
    obtain ⟨m, he', hrun⟩ := cons_iff.mp h'
    exact ih (hdet _ _ _ _ he he' ▸ hrun)

/-- What every step preserves, every run preserves. -/
theorem invariant {P : σ → Prop} (hstep : ∀ s e t, P s → step s e t → P t) {es : List ε}
    (h : Run step s es t) (hs : P s) : P t := by
  induction h with
  | nil => exact hs
  | cons he _ ih => exact ih (hstep _ _ _ hs he)

end Run

/-- Every event of the run over `es` from `s` meets `P` in the state before it. -/
def Along (step : σ → ε → σ → Prop) (P : σ → ε → Prop) (s : σ) (es : List ε) : Prop :=
  ∀ pre e post m, es = pre ++ e :: post → Run step s pre m → P m e

namespace Along

variable {step : σ → ε → σ → Prop} {P : σ → ε → Prop} {s : σ}

/-- A condition on the events alone. -/
theorem of_forall {es : List ε} (h : ∀ e ∈ es, ∀ m, P m e) : Along step P s es := by
  rintro pre e post m rfl -
  exact h e (by simp) m

theorem cons {e : ε} {es : List ε} (he : P s e) (h : ∀ m, step s e m → Along step P m es) :
    Along step P s (e :: es) := by
  rintro pre e' post m hes hrun
  cases pre with
  | nil =>
    cases hes
    cases hrun
    exact he
  | cons e₀ pre =>
    cases hes
    obtain ⟨m₀, hstep, hrun⟩ := Run.cons_iff.mp hrun
    exact h m₀ hstep pre e' post m rfl hrun

theorem head {e : ε} {es : List ε} (h : Along step P s (e :: es)) : P s e :=
  h [] e es s rfl (.nil s)

theorem tail {e : ε} {es : List ε} {m : σ} (h : Along step P s (e :: es)) (he : step s e m) :
    Along step P m es :=
  fun pre e' post m' hes hr => h (e :: pre) e' post m' (by rw [hes]; rfl) (.cons he hr)

/-- The beginning of a run. -/
theorem of_append {es fs : List ε} (h : Along step P s (es ++ fs)) : Along step P s es :=
  fun pre e post m hes hr => h pre e (post ++ fs) m (by rw [hes]; simp) hr

theorem append {es fs : List ε} (h : Along step P s es)
    (h' : ∀ m, Run step s es m → Along step P m fs) : Along step P s (es ++ fs) := by
  induction es generalizing s with
  | nil => exact h' s (.nil s)
  | cons e es ih =>
    exact cons h.head fun m hm => ih (h.tail hm) fun m' hm' => h' m' (.cons hm hm')

/-- Where a step has one result, the events `fs` start from where a run of `es` ends. -/
theorem append_of_run (hdet : ∀ s e t t', step s e t → step s e t' → t = t') {es fs : List ε}
    {m : σ} (hrun : Run step s es m) (h : Along step P s es) (h' : Along step P m fs) :
    Along step P s (es ++ fs) := by
  refine h.append fun m' hm' => ?_
  rw [hm'.unique hdet hrun]
  exact h'

end Along

/-- The invariant rule for runs whose events all meet `P`. -/
theorem Run.invariant_along {step : σ → ε → σ → Prop} {P : σ → ε → Prop} {I : σ → Prop}
    (hstep : ∀ s e t, I s → P s e → step s e t → I t) {s t : σ} {es : List ε}
    (h : Run step s es t) (hp : Along step P s es) (hs : I s) : I t := by
  induction h with
  | nil => exact hs
  | cons he _ ih => exact ih (hp.tail he) (hstep _ _ _ hs hp.head he)

/-- What holds at the end of a run and can only come about in steps that meet `B` held at its
    start, or some step of the run meets `B`. -/
theorem Run.origin {step : σ → ε → σ → Prop} {A : σ → Prop} {B : σ → ε → Prop}
    (hstep : ∀ s e t, step s e t → A t → A s ∨ B s e) {s t : σ} {es : List ε}
    (h : Run step s es t) (ht : A t) :
    A s ∨ ∃ pre e post m, es = pre ++ e :: post ∧ Run step s pre m ∧ B m e := by
  induction h with
  | nil => exact .inl ht
  | cons he _ ih =>
    rcases ih ht with hm | ⟨pre, e, post, m, rfl, hpre, hB⟩
    · rcases hstep _ _ _ he hm with hs | hB
      · exact .inl hs
      · exact .inr ⟨[], _, _, _, rfl, .nil _, hB⟩
    · exact .inr ⟨_ :: pre, e, post, m, rfl, .cons he hpre, hB⟩

/-! ## Step functions -/

section StepFunction

variable (f : σ → ε → Option σ)

/-- The state after a list of events, if all of them can happen. -/
def runAll (s : σ) (es : List ε) : Option σ := es.foldlM f s

/-- Every event of the run meets `p`, as far as the run goes. -/
def checkAlong (p : σ → ε → Bool) : σ → List ε → Bool
  | _, [] => true
  | s, e :: es => p s e && (f s e).all (checkAlong p · es)

variable {f}

theorem run_runAll {s t : σ} {es : List ε} (h : runAll f s es = some t) :
    Run (fun s e t => f s e = some t) s es t := by
  induction es generalizing s with
  | nil => cases h; exact .nil _
  | cons e es ih =>
    obtain ⟨m, hm, h⟩ := Option.bind_eq_some_iff.mp h
    exact .cons hm (ih h)

theorem along_of_checkAlong {p : σ → ε → Bool} {P : σ → ε → Prop}
    (hp : ∀ s e, p s e = true → P s e) {s : σ} {es : List ε} (h : checkAlong f p s es = true) :
    Along (fun s e t => f s e = some t) P s es := by
  induction es generalizing s with
  | nil => rintro pre e post m hes -; cases pre <;> cases hes
  | cons e es ih =>
    obtain ⟨he, hes⟩ := Bool.and_eq_true_iff.mp h
    refine .cons (hp s e he) fun m hm => ih ?_
    rwa [hm] at hes

end StepFunction

/-! ## Events as far as they go -/

section Advance

variable {σ ε : Type*} {f : σ → ε → Option σ} {s t : σ} {es fs : List ε}

@[simp] theorem runAll_nil : runAll f s [] = some s := rfl

@[simp] theorem runAll_cons {e : ε} :
    runAll f s (e :: es) = (f s e).bind fun m => runAll f m es := rfl

theorem runAll_append : runAll f s (es ++ fs) = (runAll f s es).bind fun m => runAll f m fs := by
  induction es generalizing s with
  | nil => rfl
  | cons e es ih => simp [ih, Option.bind_assoc]

/-- Every part of the beginning goes through where the whole does. -/
theorem runAll_take (h : runAll f s es = some t) (n : ℕ) : ∃ m, runAll f s (es.take n) = some m := by
  rw [← List.take_append_drop n es, runAll_append] at h
  obtain ⟨m, hm, -⟩ := Option.bind_eq_some_iff.mp h
  exact ⟨m, hm⟩

theorem runAll_invariant {P : σ → Prop} (hstep : ∀ e ∈ es, ∀ s t, P s → f s e = some t → P t)
    (h : runAll f s es = some t) (hs : P s) : P t := by
  induction es generalizing s with
  | nil => cases h; exact hs
  | cons e es ih =>
    obtain ⟨m, hm, h⟩ := Option.bind_eq_some_iff.mp h
    exact ih (fun e he => hstep e (List.mem_cons_of_mem _ he)) h
      (hstep e List.mem_cons_self s m hs hm)

/-- The state that the events lead to up to the first that cannot happen, and whether all
    happened. -/
def advance (f : σ → ε → Option σ) : σ → List ε → σ × Bool
  | s, [] => (s, true)
  | s, e :: es =>
    match f s e with
    | some m => advance f m es
    | none => (s, false)

theorem advance_of_runAll (h : runAll f s es = some t) : advance f s es = (t, true) := by
  induction es generalizing s with
  | nil => cases h; rfl
  | cons e es ih =>
    obtain ⟨m, hm, h⟩ := Option.bind_eq_some_iff.mp h
    rw [advance, hm]
    exact ih h

theorem advance_snd : (advance f s es).2 = (runAll f s es).isSome := by
  induction es generalizing s with
  | nil => rfl
  | cons e es ih =>
    rw [advance, runAll_cons]
    cases f s e with
    | none => rfl
    | some m => exact ih

theorem advance_append : advance f s (es ++ fs) =
    if (advance f s es).2 then advance f (advance f s es).1 fs else advance f s es := by
  induction es generalizing s with
  | nil => rfl
  | cons e es ih =>
    rw [List.cons_append, advance, advance]
    cases f s e with
    | none => rfl
    | some m => exact ih

theorem advance_invariant {P : σ → Prop} (hstep : ∀ e ∈ es, ∀ s t, P s → f s e = some t → P t)
    (hs : P s) : P (advance f s es).1 := by
  induction es generalizing s with
  | nil => exact hs
  | cons e es ih =>
    rw [advance]
    cases hm : f s e with
    | none => exact hs
    | some m =>
      exact ih (fun e he => hstep e (List.mem_cons_of_mem _ he)) (hstep e List.mem_cons_self s m hs hm)

end Advance

end Common
