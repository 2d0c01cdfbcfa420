import SocTalk.Lib.FloatArith
import SocTalk.TriagePolicy.Gate

/-! The ceilings of a tenant: per-run budgets and daily caps, from the install's defaults, the
tenant's stored overrides and the install's maxima, and what they do to the creation of a run. -/
namespace SocTalk.Policies
open Py
open TriagePolicy (toInt)

/-- The environment, and the mapping in `SOCTALK_IR_POLICY_FILE` where it can be loaded. -/
structure PolicyEnv where
  policyFile : Dict := []
  runTokenBudgetMax : Option String := none
  runDollarBudgetMax : Option String := none
  tenantDailyTokenCap : Option String := none
  tenantDailyDollarCap : Option String := none
  tenantDailyTokenCapMax : Option String := none
  tenantDailyDollarCapMax : Option String := none
  maxTriageAttempts : Option String := none

/-- One mapping over another. -/
def update (base layer : Dict) : Dict :=
  layer.foldl (fun merged row => Dict.set merged row.1 row.2) base

/-- A positive whole number of the environment, or the default. -/
def positiveInt (raw : Option String) (dflt : ℤ) : ℤ :=
  match int (raw.getD "") with
  | .ok v => if 0 < v then v else dflt
  | .error _ => dflt

/-- A positive number of the environment, or the default; `inf` is one, `nan` is not. -/
def positiveFloat (raw : Option String) (dflt : ℚ) : FloatVal :=
  match floatOfText (raw.getD "") with
  | .ok v => if (FloatVal.fin 0).lt v then v else .fin dflt
  | .error _ => .fin dflt

/-- `min(a, b)`. -/
def least (a b : FloatVal) : FloatVal := if b.lt a then b else a

/-- `max(a, b)`. -/
def greatest (a b : FloatVal) : FloatVal := if a.lt b then b else a

variable (env : PolicyEnv)

/-! ## Budgets of a run -/

def runTokenBudgetKey : String := "max_tokens_per_investigation"
def runDollarBudgetKey : String := "max_dollars_per_investigation"

/-- The entries of `INSTALL_POLICY_DEFAULTS` that are read here. -/
def installPolicyDefaults : Dict :=
  [(runTokenBudgetKey, .int 200000), (runDollarBudgetKey, .float (.fin 5))]

def installPolicies : Dict := update installPolicyDefaults env.policyFile

def effectivePolicy (tenant : Dict) : Dict := update (installPolicies env) tenant

def runTokenBudgetDefault : M ℤ :=
  toInt (Dict.getOr (installPolicies env) runTokenBudgetKey (.int 200000))

def runTokenBudgetMax : ℤ := positiveInt env.runTokenBudgetMax 100000000

def runDollarBudgetDefault : M FloatVal := do
  let v ← attempt [.typeError, .valueError]
    (Dict.getOr (installPolicies env) runDollarBudgetKey (.float (.fin 5))).toFloat
  return if (FloatVal.fin 0).lt (v.getD (.fin 5)) then v.getD (.fin 5) else .fin 5

def runDollarBudgetMax : FloatVal := positiveFloat env.runDollarBudgetMax 1000

/-- A millionth of a dollar, as a double. -/
def leastDollarBudget : FloatVal := .ofRat (1 / 1000000)

/-- The clamp of a budget that was read; the default where it is not finite. -/
def clampDollars (dflt : FloatVal) : FloatVal → FloatVal
  | .fin budget => greatest leastDollarBudget (least (.fin budget) (runDollarBudgetMax env))
  | _ => dflt

/-- `resolve_run_dollar_budget`; `policy` is what reading the effective policy gives. -/
def resolveRunDollarBudget (policy : M Dict) : M FloatVal := do
  let dflt ← runDollarBudgetDefault env
  match (do (Dict.getOr (← policy) runDollarBudgetKey (.float dflt)).toFloat) with
  | .ok budget => return clampDollars env dflt budget
  | .error _ => return dflt

/-- `resolve_run_token_budget`; the default is read whether or not there is an override. -/
def resolveRunTokenBudget (policy : M Dict) : M ℤ := do
  let eff ← policy
  let dflt ← runTokenBudgetDefault env
  let budget ← toInt (Dict.getOr eff runTokenBudgetKey (.int dflt))
  return max 1 (min budget (runTokenBudgetMax env))

/-! ## Daily caps -/

def dailyTokenCapKey : String := "max_tokens_per_24h"
def dailyDollarCapKey : String := "max_dollars_per_24h"

def tenantDailyTokenCap : ℤ := positiveInt env.tenantDailyTokenCap 10000000
def tenantDailyDollarCap : FloatVal := positiveFloat env.tenantDailyDollarCap 50
def tenantDailyTokenCapMax : ℤ := positiveInt env.tenantDailyTokenCapMax 10000000000
def tenantDailyDollarCapMax : FloatVal := positiveFloat env.tenantDailyDollarCapMax 100000

structure DailyCaps where
  tokens : ℤ
  dollars : FloatVal

/-- The cap that a stored token value sets; nothing where the default stays. -/
def tokenOverride (raw : Value) : M (Option ℤ) :=
  match raw with
  | .none => return none
  | v => do
    let read ← attempt [.typeError, .valueError] (toInt v)
    return read.bind fun v => if 0 < v then some (min v (tenantDailyTokenCapMax env)) else none

/-- The cap that a stored dollar value sets. -/
def dollarOverride (raw : Value) : M (Option FloatVal) :=
  match raw with
  | .none => return none
  | v => do
    let read ← attempt [.typeError, .valueError] v.toFloat
    return read.bind fun v =>
      if (FloatVal.fin 0).lt v && v.eq v && !v.eq .posInf then
        some (least v (tenantDailyDollarCapMax env))
      else none

/-- `resolve_tenant_daily_caps`. -/
def resolveTenantDailyCaps (policy : M Dict) : M DailyCaps :=
  match policy with
  | .error _ => return ⟨tenantDailyTokenCap env, tenantDailyDollarCap env⟩
  | .ok eff => do
    let tokens ← tokenOverride env (Dict.get eff dailyTokenCapKey)
    let dollars ← dollarOverride env (Dict.get eff dailyDollarCapKey)
    return ⟨tokens.getD (tenantDailyTokenCap env), dollars.getD (tenantDailyDollarCap env)⟩

/-! ## The creation of a run -/

/-- The columns of the new row that are resolved here. -/
structure RunRow where
  tokensBudget : ℤ
  dollarsBudget : FloatVal
  /-- Left to the column's default where unset. -/
  maxAttempts : Option ℤ

/-- The `INTEGER` columns; the driver refuses a number that does not fit. -/
def integerColumn (n : ℤ) : M ℤ :=
  if -2 ^ 31 ≤ n ∧ n < 2 ^ 31 then return n else throw .overflowError

/-- The attempts of a new run, where the setting is a number of at least one. -/
def maxTriageAttempts : Option ℤ :=
  match int (env.maxTriageAttempts.getD "") with
  | .ok n => if 1 ≤ n then some n else none
  | .error _ => none

/-- `start_run`; neither the prices nor the accounting switch can fail it. -/
def startRun (policy : M Dict) : M RunRow := do
  let tokensBudget ← resolveRunTokenBudget env policy
  let dollarsBudget ← resolveRunDollarBudget env policy
  let tokensBudget ← integerColumn tokensBudget
  match maxTriageAttempts env with
  | none => return ⟨tokensBudget, dollarsBudget, none⟩
  | some n => return ⟨tokensBudget, dollarsBudget, some (← integerColumn n)⟩

end SocTalk.Policies
