import SocTalk.Graph.Budget
import SocTalk.Runs.Store

/-! Resuming a budget-halted run: the endpoint's test of the new ceilings, the payload of the next
claim, the worker's state from it, and the first budget check of the supervisor. -/
namespace SocTalk.Runs.Unlock
open Py SocTalk.Graph

/-! ## The row -/

/-- The run's row with its investigation's status, and the sum of its ledger rows of unknown
price. -/
structure HaltedRow where
  status : RunStatus
  investigationStatus : InvestigationStatus
  tokensUsed : ℕ
  tokensBudget : ℤ
  dollarsUsed : FloatVal
  dollarsBudget : FloatVal
  dollarsUnpriced : FloatVal
  priceSnapshot : Option Dict
  notBefore : Time
  claimedAt : Option Time
  leaseExpiresAt : Option Time
  lastError : Option String

/-- The row that an unlock leaves behind. -/
def HaltedRow.resumed (row : HaltedRow) (now : Time) (tokens : ℤ) (dollars : FloatVal) :
    HaltedRow :=
  { row with
    status := .active, tokensBudget := tokens, dollarsBudget := dollars, claimedAt := none
    leaseExpiresAt := none, notBefore := now, lastError := none }

/-! ## The endpoint -/

/-- A strict number of a request. -/
inductive Number where
  | int (n : ℤ)
  | float (x : FloatVal)

/-- `float(n)`. -/
def Number.toFloat : Number → M FloatVal
  | .int n => (Value.int n).toFloat
  | .float x => return x

/-- Absent means: keep the current ceiling. -/
structure RunUnlockRequest where
  dollarBudget : Option Number := none
  tokenBudget : Option ℤ := none

/-- `SOCTALK_RUN_DOLLAR_BUDGET_MAX` and `SOCTALK_RUN_TOKEN_BUDGET_MAX`. -/
structure CapEnv where
  runDollarBudgetMax : Option String := none
  runTokenBudgetMax : Option String := none

def runDollarBudgetMax (env : CapEnv) : FloatVal :=
  match floatOfText (env.runDollarBudgetMax.getD "") with
  | .ok v => if (FloatVal.fin 0).lt v then v else .fin 1000
  | .error _ => .fin 1000

def runTokenBudgetMax (env : CapEnv) : ℤ :=
  match int (env.runTokenBudgetMax.getD "") with
  | .ok v => if 0 < v then v else 100000000
  | .error _ => 100000000

inductive Refusal where
  | notFound
  | notHalted (status : RunStatus)
  | investigationNotActive (status : InvestigationStatus)
  | raised (e : Exc)
  | notFinite
  | overDollarCap (cap : FloatVal)
  | overTokenCap (cap : ℤ)
  /-- What was spent on priced models, and what was spent beside it. -/
  | dollarsSpent (enforceable unpriced : FloatVal)
  | tokensSpent (tokens : ℕ)

def Refusal.statusCode : Refusal → ℕ
  | .notFound => 404
  | .notHalted _ => 409
  | .investigationNotActive _ => 409
  | .raised _ => 500
  | _ => 422

/-- The dollars that the endpoint compares a ceiling with. -/
def dollarsEnforceable (row : HaltedRow) : FloatVal :=
  (row.dollarsUsed.sub row.dollarsUnpriced).nonneg

/-- The ceiling after the request. -/
def newDollars (row : HaltedRow) (payload : RunUnlockRequest) : M FloatVal :=
  match payload.dollarBudget with
  | some n => n.toFloat
  | none => return row.dollarsBudget

def newTokens (row : HaltedRow) (payload : RunUnlockRequest) : ℤ :=
  payload.tokenBudget.getD row.tokensBudget

def isFinite : FloatVal → Bool
  | .fin _ => true
  | _ => false

/-- The ceilings of a request, checked against the caps and what is spent. -/
def checkCeilings (caps : CapEnv) (row : HaltedRow) (dollars : FloatVal) (tokens : ℤ) :
    Except Refusal Unit :=
  if !isFinite dollars then .error .notFinite
  else if (runDollarBudgetMax caps).lt dollars then
    .error (.overDollarCap (runDollarBudgetMax caps))
  else if runTokenBudgetMax caps < tokens then .error (.overTokenCap (runTokenBudgetMax caps))
  -- Strictly greater: an equal ceiling halts again immediately.
  else if dollars.le (dollarsEnforceable row) then
    .error (.dollarsSpent (dollarsEnforceable row) row.dollarsUnpriced)
  else if tokens ≤ row.tokensUsed then .error (.tokensSpent row.tokensUsed)
  else .ok ()

/-- The row after the transaction; a refusal leaves it as it is. -/
def unlockRun (caps : CapEnv) (now : Time) (row : Option HaltedRow) (payload : RunUnlockRequest) :
    Except Refusal HaltedRow :=
  match row with
  | none => .error .notFound
  | some row =>
    if row.status ≠ .haltedBudget then .error (.notHalted row.status)
    else if row.investigationStatus ≠ .active then
      .error (.investigationNotActive row.investigationStatus)
    else
      match newDollars row payload with
      | .error e => .error (.raised e)
      | .ok dollars =>
        let tokens := newTokens row payload
        match checkCeilings caps row dollars tokens with
        | .error refusal => .error refusal
        | .ok () => .ok (row.resumed now tokens dollars)

/-! ## The claim and the worker's state -/

structure ClaimedRun where
  tokensUsed : ℤ
  tokensBudget : ℤ
  dollarsUsed : FloatVal
  dollarsUnpriced : FloatVal
  dollarsBudget : FloatVal
  priceSnapshot : Option Dict

/-- The row is what a claim selects, when no other run is older and the daily cap allows one. -/
def claimable (now : Time) (row : HaltedRow) : Bool :=
  row.status = .active && row.notBefore ≤ now &&
    (row.claimedAt.isNone || row.leaseExpiresAt.any (· < now)) &&
    row.investigationStatus = .active

def claimRun (now : Time) (row : HaltedRow) : Option ClaimedRun :=
  if claimable now row then
    some
      { tokensUsed := row.tokensUsed, tokensBudget := row.tokensBudget
        dollarsUsed := row.dollarsUsed, dollarsUnpriced := row.dollarsUnpriced
        dollarsBudget := row.dollarsBudget, priceSnapshot := row.priceSnapshot }
  else none

/-- The claim's budget where it is positive, else the install's fallback where that is. -/
def tokensBudgetKv (env : BudgetEnv) (claimTokensBudget : ℤ) : Option ℤ :=
  if 0 < claimTokensBudget then some claimTokensBudget
  else
    match int (env.caseRunTokenBudget.getD "") with
    | .ok v => if 0 < v then some v else none
    | .error _ => none

/-- The run's row is the only source of a dollar budget. -/
def dollarsBudgetKv (claimDollarsBudget : FloatVal) : Option FloatVal :=
  if (FloatVal.fin 0).lt claimDollarsBudget then some claimDollarsBudget else none

/-- The budget part of the graph state a claimed run starts with. -/
def buildState (env : BudgetEnv) (claim : ClaimedRun) : BudgetState where
  tokensUsed := some claim.tokensUsed
  tokensBudget := tokensBudgetKv env claim.tokensBudget
  dollarsUsed := some claim.dollarsUsed
  dollarsUnpriced := some claim.dollarsUnpriced
  dollarsBudget := dollarsBudgetKv claim.dollarsBudget
  -- An empty mapping is left out.
  priceSnapshot := claim.priceSnapshot.filter fun d => !d.isEmpty

/-- Claimed again, the run is not over budget at the supervisor's first check. -/
def Proceeds (env : BudgetEnv) (later : Time) (row : HaltedRow) : Prop :=
  ∃ claim, claimRun later row = some claim ∧ overBudget env (buildState env claim) = false

/-! ## Soundness and completeness -/

theorem claimRun_resumed {row : HaltedRow} {now later : Time} (hlater : now ≤ later)
    (hactive : row.investigationStatus = .active) (tokens : ℤ) (dollars : FloatVal) :
    claimRun later (row.resumed now tokens dollars) =
      some ⟨row.tokensUsed, tokens, row.dollarsUsed, row.dollarsUnpriced, dollars,
        row.priceSnapshot⟩ := by
  unfold claimRun claimable
  simp [HaltedRow.resumed, hlater, hactive]

/-- An empty mapping carries no flag. -/
theorem costTrackingOff_filter (snapshot : Option Dict) :
    costTrackingOff (snapshot.filter fun d => !d.isEmpty) = costTrackingOff snapshot := by
  cases snapshot with
  | none => rfl
  | some d => cases d <;> rfl

/-- The worker's check on positive ceilings is the one the endpoint makes. -/
theorem proceeds_resumed_iff (env : BudgetEnv) {row : HaltedRow} {now later : Time}
    (hlater : now ≤ later) (hactive : row.investigationStatus = .active) {tokens : ℤ}
    {dollars : FloatVal} (htokens : 0 < tokens) (hdollars : (FloatVal.fin 0).lt dollars = true) :
    Proceeds env later (row.resumed now tokens dollars) ↔ row.tokensUsed < tokens ∧
      (costTrackingOff row.priceSnapshot = false →
        dollars.le (dollarsEnforceable row) = false) := by
  have htokensBudget : tokensBudgetKv env tokens = some tokens := if_pos htokens
  have hused : some (row.tokensUsed : ℤ) = some (row.tokensUsed : ℤ) := rfl
  unfold Proceeds
  rw [claimRun_resumed hlater hactive]
  simp only [Option.some.injEq, exists_eq_left']
  rw [overBudget_eq_false_iff env hused htokensBudget rfl (if_pos hdollars)]
  simp only [buildState, costTrackingOff_filter]
  rfl

/-- The ceilings that the install accepts. -/
def WithinCaps (caps : CapEnv) (dollars : FloatVal) (tokens : ℤ) : Prop :=
  isFinite dollars = true ∧ (runDollarBudgetMax caps).lt dollars = false ∧
    tokens ≤ runTokenBudgetMax caps

theorem checkCeilings_eq_ok_iff {caps : CapEnv} {row : HaltedRow} {dollars : FloatVal}
    {tokens : ℤ} :
    checkCeilings caps row dollars tokens = .ok () ↔ WithinCaps caps dollars tokens ∧
      dollars.le (dollarsEnforceable row) = false ∧ row.tokensUsed < tokens := by
  unfold checkCeilings WithinCaps
  constructor
  · intro h
    split at h
    · cases h
    · split at h
      · cases h
      · split at h
        · cases h
        · split at h
          · cases h
          · split at h
            · cases h
            · refine ⟨⟨by simp_all, by simp_all, by omega⟩, by simp_all, by omega⟩
  · intro ⟨⟨hfinite, hcap, htokens⟩, hspent, hused⟩
    have h₁ : ¬ runTokenBudgetMax caps < tokens := by omega
    have h₂ : ¬ tokens ≤ row.tokensUsed := by omega
    simp [hfinite, hcap, hspent, h₁, h₂]

/-- An accepted unlock resumes the run with the ceilings it was checked for. -/
theorem unlockRun_eq_ok_iff {caps : CapEnv} {now : Time} {row row' : HaltedRow}
    {payload : RunUnlockRequest} (hhalted : row.status = .haltedBudget)
    (hactive : row.investigationStatus = .active) :
    unlockRun caps now (some row) payload = .ok row' ↔ ∃ dollars,
      newDollars row payload = .ok dollars ∧
      checkCeilings caps row dollars (newTokens row payload) = .ok () ∧
      row' = row.resumed now (newTokens row payload) dollars := by
  unfold unlockRun
  simp only [hhalted, hactive, ne_eq, not_true_eq_false, if_false]
  cases hdollars : newDollars row payload with
  | error e => simp
  | ok dollars =>
    cases hcheck : checkCeilings caps row dollars (newTokens row payload) with
    | error refusal => simp [hcheck]
    | ok u => simp [hcheck, eq_comm]

/-- A finite ceiling over what is enforced is positive. -/
theorem pos_of_not_le_enforceable {row : HaltedRow} {dollars : FloatVal}
    (hfinite : isFinite dollars = true) (h : dollars.le (dollarsEnforceable row) = false) :
    (FloatVal.fin 0).lt dollars = true := by
  cases dollars with
  | fin q =>
    unfold dollarsEnforceable FloatVal.nonneg at h
    split at h
    · rename_i hpos
      cases hx : row.dollarsUsed.sub row.dollarsUnpriced with
      | fin r =>
        simp [hx, FloatVal.le, FloatVal.lt, FloatVal.eq] at hpos h ⊢
        linarith
      | posInf => simp [hx, FloatVal.le, FloatVal.lt] at h
      | negInf => simp [hx, FloatVal.lt] at hpos
      | nan => simp [hx, FloatVal.lt] at hpos
    · simp [FloatVal.le, FloatVal.lt, FloatVal.eq] at h ⊢
      exact lt_of_le_of_ne h.1 (Ne.symm h.2)
  | posInf => cases hfinite
  | negInf => cases hfinite
  | nan => cases hfinite

/-- A run that an accepted unlock resumes does not halt at the next check. With dollars accounted
for, a positive ceiling within the install's caps that lets the run proceed is accepted. -/
theorem unlockRun_sound_complete (env : BudgetEnv) (caps : CapEnv) {row : HaltedRow}
    (hhalted : row.status = .haltedBudget) (hactive : row.investigationStatus = .active)
    (payload : RunUnlockRequest) {now later : Time} (hlater : now ≤ later) :
    (∀ row', unlockRun caps now (some row) payload = .ok row' → Proceeds env later row') ∧
    (costTrackingOff row.priceSnapshot = false → ∀ dollars, newDollars row payload = .ok dollars →
      0 < newTokens row payload → (FloatVal.fin 0).lt dollars = true →
      WithinCaps caps dollars (newTokens row payload) →
      Proceeds env later (row.resumed now (newTokens row payload) dollars) →
      unlockRun caps now (some row) payload =
        .ok (row.resumed now (newTokens row payload) dollars)) := by
  constructor
  · intro row' h
    obtain ⟨dollars, -, hcheck, rfl⟩ := (unlockRun_eq_ok_iff hhalted hactive).mp h
    obtain ⟨⟨hfinite, -, -⟩, hspent, hused⟩ := checkCeilings_eq_ok_iff.mp hcheck
    have htokens : 0 < newTokens row payload := by omega
    have hdollars := pos_of_not_le_enforceable hfinite hspent
    exact (proceeds_resumed_iff env hlater hactive htokens hdollars).mpr ⟨hused, fun _ => hspent⟩
  · intro htracking dollars hnew htokens hdollars hcaps hproceeds
    obtain ⟨hused, hspent⟩ :=
      (proceeds_resumed_iff env hlater hactive htokens hdollars).mp hproceeds
    have hcheck := checkCeilings_eq_ok_iff.mpr ⟨hcaps, hspent htracking, hused⟩
    exact (unlockRun_eq_ok_iff hhalted hactive).mpr ⟨dollars, hnew, hcheck, rfl⟩

/-- Halted on its tokens, with no dollars spent. -/
def tokenHalted : HaltedRow where
  status := .haltedBudget
  investigationStatus := .active
  tokensUsed := 20000
  tokensBudget := 15000
  dollarsUsed := .fin 0
  dollarsBudget := .fin 5
  dollarsUnpriced := .fin 0
  priceSnapshot := none
  notBefore := 0
  claimedAt := some 0
  leaseExpiresAt := none
  lastError := none

theorem dollarsEnforceable_tokenHalted : dollarsEnforceable tokenHalted = .fin 0 := by
  simp [dollarsEnforceable, tokenHalted, FloatVal.sub, FloatVal.ofRat, FloatVal.nonneg,
    FloatVal.lt]

theorem unlockRun_sound_complete_tokenHalted :
    Proceeds {} 10 (tokenHalted.resumed 10 30000 (.fin 5)) ∧
      (unlockRun {} 10 (some tokenHalted) { tokenBudget := some 30000 } =
        .ok (tokenHalted.resumed 10 30000 (.fin 5))) := by
  have hhalted : tokenHalted.status = .haltedBudget := rfl
  have hlater : (10 : Time) ≤ 10 := le_rfl
  have h := unlockRun_sound_complete {} {} hhalted rfl { tokenBudget := some 30000 } hlater
  have hproceeds : Proceeds {} 10 (tokenHalted.resumed 10 30000 (.fin 5)) :=
    (proceeds_resumed_iff {} le_rfl rfl (by decide) (by decide)).mpr
      ⟨by decide, fun _ => by rw [dollarsEnforceable_tokenHalted]; decide⟩
  have haccepted := h.2 (by decide) (.fin 5) rfl (by decide) (by decide) ⟨by decide, by decide,
    by decide⟩ hproceeds
  exact ⟨h.1 _ haccepted, haccepted⟩

/-- A ceiling of $2000 would let the run proceed, and the install's cap of $1000 refuses it. -/
theorem refused_over_cap : ¬ ∀ (env : BudgetEnv) (caps : CapEnv) (row : HaltedRow)
    (payload : RunUnlockRequest) (now later : Time), row.status = .haltedBudget →
    row.investigationStatus = .active → now ≤ later → ∀ dollars,
    newDollars row payload = .ok dollars →
    ((∃ row', unlockRun caps now (some row) payload = .ok row') ↔
      Proceeds env later (row.resumed now (newTokens row payload) dollars)) := by
  intro hall
  let payload : RunUnlockRequest :=
    { dollarBudget := some (.float (.fin 2000)), tokenBudget := some 30000 }
  have hproceeds : Proceeds {} 10 (tokenHalted.resumed 10 30000 (.fin 2000)) :=
    (proceeds_resumed_iff {} le_rfl rfl (by decide) (by decide)).mpr
      ⟨by decide, fun _ => by rw [dollarsEnforceable_tokenHalted]; decide⟩
  obtain ⟨row', h⟩ :=
    (hall {} {} tokenHalted payload 10 10 rfl rfl le_rfl (.fin 2000) rfl).mpr hproceeds
  obtain ⟨dollars, hnew, hcheck, -⟩ := (unlockRun_eq_ok_iff rfl rfl).mp h
  cases hnew
  obtain ⟨⟨-, hcap, -⟩, -⟩ := checkCeilings_eq_ok_iff.mp hcheck
  revert hcap
  decide

end SocTalk.Runs.Unlock
