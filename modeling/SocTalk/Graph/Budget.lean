import SocTalk.Lib.Value

/-! The token and dollar budget of a run, as the graph state carries it. -/
namespace SocTalk.Graph
open Py

/-- `SOCTALK_CASE_RUN_TOKEN_BUDGET` and `SOCTALK_CASE_RUN_DOLLAR_BUDGET`. -/
structure BudgetEnv where
  caseRunTokenBudget : Option String := none
  caseRunDollarBudget : Option String := none

def defaultTokenBudget : ℤ := 15000
def defaultDollarBudget : FloatVal := .fin 5

def tokenBudgetDefault (env : BudgetEnv) : ℤ :=
  match int (env.caseRunTokenBudget.getD "") with
  | .ok v => if 0 < v then v else defaultTokenBudget
  | .error _ => defaultTokenBudget

def dollarBudgetDefault (env : BudgetEnv) : FloatVal :=
  match floatOfText (env.caseRunDollarBudget.getD "") with
  | .ok v => if (FloatVal.fin 0).lt v then v else defaultDollarBudget
  | .error _ => defaultDollarBudget

/-- The keys of the state that the budget is checked on. -/
structure BudgetState where
  tokensUsed : Option ℤ := none
  tokensBudget : Option ℤ := none
  dollarsUsed : Option FloatVal := none
  dollarsBudget : Option FloatVal := none
  dollarsUnpriced : Option FloatVal := none
  priceSnapshot : Option Dict := none

variable (env : BudgetEnv)

/-- Missing keys are set to their defaults. -/
def ensure (s : BudgetState) : BudgetState :=
  { s with
    tokensUsed := some (s.tokensUsed.getD 0)
    tokensBudget := some (s.tokensBudget.getD (tokenBudgetDefault env))
    dollarsUsed := some (s.dollarsUsed.getD (.fin 0))
    dollarsBudget := some (s.dollarsBudget.getD (dollarBudgetDefault env)) }

/-- The tenant keeps no dollar accounting: the flag on the run's frozen prices is `False`. -/
def costTrackingOff (snapshot : Option Dict) : Bool :=
  match snapshot.map (Dict.get · "cost_tracking") with
  | some (.bool false) => true
  | _ => false

/-- The dollars that may halt a run: those spent on models of known price. -/
def enforceableDollars (s : BudgetState) : FloatVal :=
  ((s.dollarsUsed.getD (.fin 0)).sub (s.dollarsUnpriced.getD (.fin 0))).nonneg

def overBudget (s : BudgetState) : Bool :=
  let s := ensure env s
  if s.tokensBudget.getD 0 ≤ s.tokensUsed.getD 0 then true
  else if costTrackingOff s.priceSnapshot then false
  else (s.dollarsBudget.getD (.fin 0)).le (enforceableDollars s)

/-- Below the token budget, and below the dollar budget where dollars are accounted for. -/
theorem overBudget_eq_false_iff {s : BudgetState} {tokens tokensBudget : ℤ}
    {dollars dollarsBudget : FloatVal} (ht : s.tokensUsed = some tokens)
    (htb : s.tokensBudget = some tokensBudget) (hd : s.dollarsUsed = some dollars)
    (hdb : s.dollarsBudget = some dollarsBudget) :
    overBudget env s = false ↔ tokens < tokensBudget ∧
      (costTrackingOff s.priceSnapshot = false →
        dollarsBudget.le (enforceableDollars s) = false) := by
  have henforceable : enforceableDollars (ensure env s) = enforceableDollars s := by
    simp [enforceableDollars, ensure, hd]
  have hsnapshot : (ensure env s).priceSnapshot = s.priceSnapshot := rfl
  unfold overBudget
  simp only [henforceable, hsnapshot]
  simp only [ensure, ht, htb, hdb, Option.getD_some]
  constructor
  · intro h
    split at h
    · cases h
    · refine ⟨by omega, fun hoff => ?_⟩
      rw [hoff] at h
      exact h
  · intro ⟨hlt, hdollars⟩
    rw [if_neg (by omega)]
    cases hoff : costTrackingOff s.priceSnapshot with
    | true => rfl
    | false => exact hdollars hoff

end SocTalk.Graph
