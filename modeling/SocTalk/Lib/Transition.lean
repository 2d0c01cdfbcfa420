import Mathlib.Data.Nat.Notation

/-! Transition systems given by a step function: guarded runs, the invariant rule, and what
every way of going on leads to. -/
namespace Transition

variable {S O : Type}

/-- Runs whose steps all meet the condition. -/
inductive Run (step : S → O → S) (cond : S → O → Prop) (s : S) : S → Prop
  | refl : Run step cond s s
  | step {t} (o : O) : Run step cond s t → cond t o → Run step cond s (step t o)

section

variable {step : S → O → S} {cond : S → O → Prop}

theorem Run.trans {s t u : S} (h : Run step cond s t) (h' : Run step cond t u) :
    Run step cond s u := by
  induction h' with
  | refl => exact h
  | step o _ hcond ih => exact Run.step o ih hcond

/-- What an admitted step keeps, a run keeps. -/
theorem Run.inv {Inv : S → Prop} (hstep : ∀ s o, Inv s → cond s o → Inv (step s o)) {s t : S}
    (h0 : Inv s) (hrun : Run step cond s t) : Inv t := by
  induction hrun with
  | refl => exact h0
  | step o _ hcond ih => exact hstep _ o ih hcond

/-- What every admitted step relates, a run relates. -/
theorem Run.rel {R : S → S → Prop} (hrefl : ∀ s, R s s) (htrans : ∀ s t u, R s t → R t u → R s u)
    (hstep : ∀ s o, cond s o → R s (step s o)) {s t : S} (hrun : Run step cond s t) : R s t := by
  induction hrun with
  | refl => exact hrefl s
  | step o _ hcond ih => exact htrans _ _ _ ih (hstep _ o hcond)

/-- Each operation is admitted where those before it lead. -/
def Admits (step : S → O → S) (cond : S → O → Prop) (s : S) : List O → Prop
  | [] => True
  | o :: os => cond s o ∧ Admits step cond (step s o) os

theorem Run.of_admits {os : List O} {s : S} (h : Admits step cond s os) :
    Run step cond s (os.foldl step s) := by
  induction os generalizing s with
  | nil => exact Run.refl
  | cons o os ih => exact (Run.step o Run.refl h.1).trans (ih h.2)

/-- The state after the operations, `none` where one is not admitted. -/
def runOps (step : S → O → S) (cond : S → O → Prop) [∀ s o, Decidable (cond s o)] (s : S) :
    List O → Option S
  | [] => some s
  | o :: os => if cond s o then runOps step cond (step s o) os else none

theorem Run.of_runOps [∀ s o, Decidable (cond s o)] {os : List O} {s t : S}
    (h : runOps step cond s os = some t) : Run step cond s t := by
  induction os generalizing s with
  | nil =>
    obtain rfl := Option.some.inj h
    exact Run.refl
  | cons o os ih =>
    unfold runOps at h
    split at h
    · rename_i hcond
      exact (Run.step o Run.refl hcond).trans (ih h)
    · cases h

end

/-- No run along `R` avoids `P` for ever, and until `P` a step of `Q` is always open. -/
inductive Inevitable (Q R : S → S → Prop) (P : S → Prop) : S → Prop
  | now {s} : P s → Inevitable Q R P s
  | later {s} : (∃ t, Q s t) → (∀ t, R s t → Inevitable Q R P t) → Inevitable Q R P s

/-- A measure that every step lowers, where some step can always be taken. -/
theorem Inevitable.of_measure {Q R : S → S → Prop} {P I : S → Prop} (m : S → ℕ)
    (hprogress : ∀ s, I s → ¬P s → ∃ t, Q s t)
    (hstep : ∀ s t, I s → ¬P s → R s t → P t ∨ I t ∧ m t < m s) {s : S} (h : I s) :
    Inevitable Q R P s := by
  induction hn : m s using Nat.strongRecOn generalizing s with
  | ind n ih =>
    by_cases hp : P s
    · exact Inevitable.now hp
    · refine Inevitable.later (hprogress s h hp) ?_
      intro t ht
      rcases hstep s t h hp ht with hpt | ⟨hinv, hlt⟩
      · exact Inevitable.now hpt
      · exact ih (m t) (hn ▸ hlt) hinv rfl

end Transition
