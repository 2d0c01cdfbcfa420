import SocTalk.Lib.FloatOrder
import SocTalk.Lib.Raise
import SocTalk.Policies.Budgets

/-! When the install's maxima bound what a tenant's policies resolve to, and when a run can be
created at all. The overrides are clamped; the defaults that stand in for them are not. -/
namespace SocTalk.Policies
open Py
open TriagePolicy (toInt)

/-! ## Numbers -/

theorem positiveFloat_pos (raw : Option String) {dflt : ℚ} (h : 0 < dflt) :
    (FloatVal.fin 0).lt (positiveFloat raw dflt) = true := by
  unfold positiveFloat
  split
  · split
    · rename_i hpos
      exact hpos
    · exact FloatVal.fin_lt_fin.mpr h
  · exact FloatVal.fin_lt_fin.mpr h

theorem positiveInt_pos (raw : Option String) {dflt : ℤ} (h : 0 < dflt) :
    0 < positiveInt raw dflt := by
  unfold positiveInt
  split
  · split
    · rename_i hpos
      exact hpos
    · exact h
  · exact h

/-- A minimum with a bound that is no NaN stays below the bound. -/
theorem least_le {q : ℚ} {bound : FloatVal} (h : (FloatVal.fin 0).lt bound = true) :
    (least (.fin q) bound).le bound = true := by
  rcases FloatVal.pos_cases h with rfl | ⟨m, rfl, -⟩
  · rfl
  · unfold least
    split
    · exact FloatVal.fin_le_fin.mpr (le_refl m)
    · rename_i hlt
      have hle : ¬m < q := fun hmq => hlt (FloatVal.fin_lt_fin.mpr hmq)
      exact FloatVal.fin_le_fin.mpr (by linarith)

theorem leastDollarBudget_eq : ∃ q : ℚ, leastDollarBudget = .fin q ∧ 0 < q := by
  have hpos : (FloatVal.fin 0).lt leastDollarBudget = true := by decide +kernel
  rcases FloatVal.pos_cases hpos with hinf | h
  · exact absurd hinf (by decide +kernel)
  · exact h

variable {env : PolicyEnv}

/-! ## The dollars of a run -/

theorem runDollarBudgetMax_pos : (FloatVal.fin 0).lt (runDollarBudgetMax env) = true :=
  positiveFloat_pos _ (by norm_num)

theorem runDollarBudgetDefault_pos {dflt : FloatVal} (h : runDollarBudgetDefault env = .ok dflt) :
    (FloatVal.fin 0).lt dflt = true := by
  obtain ⟨v, -, h⟩ := (bind_eq_ok _ _ _).mp h
  rw [← (pure_eq_ok _ _).mp h]
  split
  · rename_i hpos
    exact hpos
  · decide

/-- The clamped budget of a number is positive, and bounded if the least budget is. -/
theorem clampDollars_fin (dflt : FloatVal) (q : ℚ) :
    (FloatVal.fin 0).lt (clampDollars env dflt (.fin q)) = true ∧
      ((clampDollars env dflt (.fin q)).le (runDollarBudgetMax env) = true ↔
        leastDollarBudget.le (runDollarBudgetMax env) = true) := by
  obtain ⟨l, hl, hpos⟩ := leastDollarBudget_eq
  have hbound := least_le (q := q) (@runDollarBudgetMax_pos env)
  unfold clampDollars greatest
  dsimp only
  split
  · rename_i hlt
    refine ⟨FloatVal.lt_trans ?_ hlt, iff_of_true hbound (FloatVal.le_of_lt (FloatVal.lt_of_lt_of_le hlt hbound))⟩
    rw [hl]
    exact FloatVal.fin_lt_fin.mpr hpos
  · rw [hl]
    exact ⟨FloatVal.fin_lt_fin.mpr hpos, Iff.rfl⟩

/-! ## Stored values -/

theorem lookup_update_isSome {base layer : Dict} {key : String}
    (h : (base.lookup key).isSome = true) : ((update base layer).lookup key).isSome = true := by
  unfold update
  induction layer generalizing base with
  | nil => exact h
  | cons row layer ih =>
    refine ih ?_
    by_cases hkey : key = row.1
    · rw [hkey, Dict.lookup_set_self]
      rfl
    · rw [Dict.lookup_set_of_ne _ _ hkey]
      exact h

theorem getOr_of_isSome {d : Dict} {key : String} (h : (d.lookup key).isSome = true)
    (dflt : Value) : Dict.getOr d key dflt = Dict.get d key := by
  obtain ⟨v, hv⟩ := Option.isSome_iff_exists.mp h
  unfold Dict.getOr Dict.get
  rw [hv]
  rfl

/-- A budget key has a value in the install's policies, so that its default is never taken. -/
theorem getOr_installPolicies {key : String} (h : (installPolicyDefaults.lookup key).isSome = true)
    (dflt : Value) : Dict.getOr (installPolicies env) key dflt = Dict.get (installPolicies env) key :=
  getOr_of_isSome (lookup_update_isSome h) dflt

theorem getOr_effectivePolicy {key : String} {tenant : Dict}
    (h : (installPolicyDefaults.lookup key).isSome = true) (dflt : Value) :
    Dict.getOr (effectivePolicy env tenant) key dflt = Dict.get (effectivePolicy env tenant) key :=
  getOr_of_isSome (lookup_update_isSome (lookup_update_isSome h)) dflt

/-- The value is, or reads as, a finite number. -/
def ReadsFinite (v : Value) : Prop := ∃ q : ℚ, v.toFloat = .ok (.fin q)

section

variable {tenant : Dict}

/-- A stored number is clamped, and anything else leaves the default, which is not. -/
theorem resolveRunDollarBudget_eq {dflt : FloatVal} (hdflt : runDollarBudgetDefault env = .ok dflt) :
    (∀ q : ℚ, (Dict.get (effectivePolicy env tenant) runDollarBudgetKey).toFloat = .ok (.fin q) →
      resolveRunDollarBudget env (.ok (effectivePolicy env tenant)) =
        .ok (clampDollars env dflt (.fin q))) ∧
    (¬ReadsFinite (Dict.get (effectivePolicy env tenant) runDollarBudgetKey) →
      resolveRunDollarBudget env (.ok (effectivePolicy env tenant)) = .ok dflt) := by
  unfold resolveRunDollarBudget
  rw [hdflt]
  simp only [Bind.bind, Except.bind, Pure.pure, Except.pure]
  rw [getOr_effectivePolicy rfl]
  constructor
  · intro q hq
    rw [hq]
  · intro hread
    cases hv : (Dict.get (effectivePolicy env tenant) runDollarBudgetKey).toFloat with
    | error e => rfl
    | ok x =>
      cases x with
      | fin q => exact absurd ⟨q, hv⟩ hread
      | posInf | negInf | nan => rfl

/-- The dollar budget of a run is positive and within the maximum. -/
def DollarsBounded (env : PolicyEnv) (tenant : Dict) : Prop :=
  ∃ budget, resolveRunDollarBudget env (.ok (effectivePolicy env tenant)) = .ok budget ∧
    (FloatVal.fin 0).lt budget = true ∧ budget.le (runDollarBudgetMax env) = true

/-- The install's default can be read. Where the effective value is a finite number, a millionth of
a dollar is within the maximum, and else the default is. -/
structure DollarsFit (env : PolicyEnv) (tenant : Dict) : Prop where
  default : Returns (runDollarBudgetDefault env)
  clamped : ReadsFinite (Dict.get (effectivePolicy env tenant) runDollarBudgetKey) →
    leastDollarBudget.le (runDollarBudgetMax env) = true
  fallback : ¬ReadsFinite (Dict.get (effectivePolicy env tenant) runDollarBudgetKey) →
    ∀ dflt, runDollarBudgetDefault env = .ok dflt → dflt.le (runDollarBudgetMax env) = true

theorem dollarsBounded_iff : DollarsBounded env tenant ↔ DollarsFit env tenant := by
  constructor
  · intro ⟨budget, hbudget, _, hmax⟩
    obtain ⟨dflt, hdflt, -⟩ := (bind_eq_ok _ _ _).mp hbudget
    obtain ⟨hclamped, hfallback⟩ := @resolveRunDollarBudget_eq env tenant _ hdflt
    refine ⟨⟨dflt, hdflt⟩, ?_, ?_⟩
    · intro ⟨q, hq⟩
      have heq : clampDollars env dflt (.fin q) = budget := by
        simpa using (hclamped q hq).symm.trans hbudget
      rw [← heq] at hmax
      exact (clampDollars_fin dflt q).2.mp hmax
    · intro hread dflt' hdflt'
      have heq : dflt = budget := by simpa using (hfallback hread).symm.trans hbudget
      have heq' : dflt = dflt' := by simpa using hdflt.symm.trans hdflt'
      rw [← heq', heq]
      exact hmax
  · intro h
    obtain ⟨dflt, hdflt⟩ := h.default
    obtain ⟨hclamped, hfallback⟩ := @resolveRunDollarBudget_eq env tenant _ hdflt
    by_cases hread : ReadsFinite (Dict.get (effectivePolicy env tenant) runDollarBudgetKey)
    · obtain ⟨q, hq⟩ := hread
      obtain ⟨hpos, hmax⟩ := @clampDollars_fin env dflt q
      exact ⟨_, hclamped q hq, hpos, hmax.mpr (h.clamped ⟨q, hq⟩)⟩
    · exact ⟨dflt, hfallback hread, runDollarBudgetDefault_pos hdflt, h.fallback hread dflt hdflt⟩

/-! ## Daily caps -/

/-- The caps resolve, within their maxima. -/
def CapsBounded (env : PolicyEnv) (tenant : Dict) : Prop :=
  ∃ caps, resolveTenantDailyCaps env (.ok (effectivePolicy env tenant)) = .ok caps ∧
    caps.tokens ≤ tenantDailyTokenCapMax env ∧
    caps.dollars.le (tenantDailyDollarCapMax env) = true

/-- Reading a value raises nothing but what the resolver catches. -/
def Caught {α : Type} (x : M α) : Prop := ∀ e, x = .error e → e ∈ [Exc.typeError, Exc.valueError]

/-- A dollar cap that is taken over. -/
def Acceptable (v : FloatVal) : Prop :=
  ((FloatVal.fin 0).lt v && v.eq v && !v.eq .posInf) = true

/-- The stored caps can be read or rejected; where one is absent or rejected, the default that
stays is within the maximum. -/
structure CapsFit (env : PolicyEnv) (tenant : Dict) : Prop where
  tokens : Caught (toInt (Dict.get (effectivePolicy env tenant) dailyTokenCapKey))
  tokenDefault : (¬∃ n, toInt (Dict.get (effectivePolicy env tenant) dailyTokenCapKey) = .ok n ∧
    0 < n) → tenantDailyTokenCap env ≤ tenantDailyTokenCapMax env
  dollars : Caught (Dict.get (effectivePolicy env tenant) dailyDollarCapKey).toFloat
  dollarDefault : (¬∃ x, (Dict.get (effectivePolicy env tenant) dailyDollarCapKey).toFloat = .ok x ∧
    Acceptable x) → (tenantDailyDollarCap env).le (tenantDailyDollarCapMax env) = true

/-- A positive number is cut to the maximum; else the default stays. -/
theorem tokenOverride_eq {v : Value} (h : Caught (toInt v)) :
    tokenOverride env v = .ok ((toInt v).toOption.bind fun n =>
      if 0 < n then some (min n (tenantDailyTokenCapMax env)) else none) := by
  unfold tokenOverride
  split
  · rfl
  · rw [attempt_eq_ok.mpr ⟨h, rfl⟩]
    rfl

theorem dollarOverride_eq {v : Value} (h : Caught v.toFloat) :
    dollarOverride env v = .ok (v.toFloat.toOption.bind fun x =>
      if (FloatVal.fin 0).lt x && x.eq x && !x.eq .posInf then
        some (least x (tenantDailyDollarCapMax env)) else none) := by
  unfold dollarOverride
  split
  · rfl
  · rw [attempt_eq_ok.mpr ⟨h, rfl⟩]
    rfl

theorem caught_of_tokenOverride {v : Value} {n : Option ℤ} (h : tokenOverride env v = .ok n) :
    Caught (toInt v) := by
  unfold tokenOverride at h
  split at h
  · intro e he
    cases he
    simp
  · obtain ⟨read, hread, -⟩ := (bind_eq_ok _ _ _).mp h
    exact (attempt_eq_ok.mp hread).1

theorem caught_of_dollarOverride {v : Value} {x : Option FloatVal}
    (h : dollarOverride env v = .ok x) : Caught v.toFloat := by
  unfold dollarOverride at h
  split at h
  · intro e he
    cases he
    simp
  · obtain ⟨read, hread, -⟩ := (bind_eq_ok _ _ _).mp h
    exact (attempt_eq_ok.mp hread).1

/-- A stored number of tokens is below the maximum, so only the default can exceed it. -/
theorem tokens_le_iff {x : M ℤ} {dflt bound : ℤ} :
    ((x.toOption.bind fun n => if 0 < n then some (min n bound) else none).getD dflt ≤ bound) ↔
      ((¬∃ n, x = .ok n ∧ 0 < n) → dflt ≤ bound) := by
  cases x with
  | error e => simp [Except.toOption]
  | ok n =>
    by_cases hn : 0 < n
    · simp [Except.toOption, hn]
    · simp [Except.toOption, hn]

theorem least_le_of_acceptable {x bound : FloatVal} (hx : Acceptable x)
    (hbound : (FloatVal.fin 0).lt bound = true) : (least x bound).le bound = true := by
  cases x with
  | fin q => exact least_le hbound
  | posInf | negInf | nan => exact absurd hx (by unfold Acceptable; decide)

theorem dollars_le_iff {x : M FloatVal} {dflt bound : FloatVal}
    (hbound : (FloatVal.fin 0).lt bound = true) :
    (((x.toOption.bind fun v => if (FloatVal.fin 0).lt v && v.eq v && !v.eq .posInf then
        some (least v bound) else none).getD dflt).le bound = true) ↔
      ((¬∃ v, x = .ok v ∧ Acceptable v) → dflt.le bound = true) := by
  cases x with
  | error e => simp [Except.toOption]
  | ok v =>
    by_cases hv : Acceptable v
    · have hle := least_le_of_acceptable hv hbound
      simp only [Except.toOption, Option.bind_some]
      rw [if_pos (show ((FloatVal.fin 0).lt v && v.eq v && !v.eq .posInf) = true from hv)]
      exact iff_of_true hle fun hnone => absurd ⟨v, rfl, hv⟩ hnone
    · simp only [Except.toOption, Option.bind_some]
      rw [if_neg (show ¬((FloatVal.fin 0).lt v && v.eq v && !v.eq .posInf) = true from hv)]
      constructor
      · intro h _
        exact h
      · intro h
        refine h ?_
        rintro ⟨v', hv', hacc⟩
        refine hv ?_
        cases hv'
        exact hacc

theorem capsBounded_iff : CapsBounded env tenant ↔ CapsFit env tenant := by
  have hbound : (FloatVal.fin 0).lt (tenantDailyDollarCapMax env) = true :=
    positiveFloat_pos _ (by norm_num)
  have hcaps : ∀ {caps : DailyCaps},
      Caught (toInt (Dict.get (effectivePolicy env tenant) dailyTokenCapKey)) →
      Caught (Dict.get (effectivePolicy env tenant) dailyDollarCapKey).toFloat →
      resolveTenantDailyCaps env (.ok (effectivePolicy env tenant)) = .ok caps →
      (caps.tokens ≤ tenantDailyTokenCapMax env ↔
        ((¬∃ n, toInt (Dict.get (effectivePolicy env tenant) dailyTokenCapKey) = .ok n ∧ 0 < n) →
          tenantDailyTokenCap env ≤ tenantDailyTokenCapMax env)) ∧
      (caps.dollars.le (tenantDailyDollarCapMax env) = true ↔
        ((¬∃ x, (Dict.get (effectivePolicy env tenant) dailyDollarCapKey).toFloat = .ok x ∧
          Acceptable x) → (tenantDailyDollarCap env).le (tenantDailyDollarCapMax env) = true)) := by
    intro caps htokens hdollars h
    unfold resolveTenantDailyCaps at h
    dsimp only at h
    rw [tokenOverride_eq htokens, dollarOverride_eq hdollars] at h
    rw [← (pure_eq_ok _ _).mp h]
    exact ⟨tokens_le_iff, dollars_le_iff hbound⟩
  constructor
  · intro ⟨caps, h, htokens, hdollars⟩
    have hresolved := h
    unfold resolveTenantDailyCaps at hresolved
    obtain ⟨tokens, ht, hresolved⟩ := (bind_eq_ok _ _ _).mp hresolved
    obtain ⟨dollars, hd, -⟩ := (bind_eq_ok _ _ _).mp hresolved
    have htc := caught_of_tokenOverride ht
    have hdc := caught_of_dollarOverride hd
    obtain ⟨htiff, hdiff⟩ := hcaps htc hdc h
    exact ⟨htc, htiff.mp htokens, hdc, hdiff.mp hdollars⟩
  · intro h
    have hresolved : ∃ caps, resolveTenantDailyCaps env (.ok (effectivePolicy env tenant)) =
        .ok caps := by
      unfold resolveTenantDailyCaps
      dsimp only
      rw [tokenOverride_eq h.tokens, dollarOverride_eq h.dollars]
      exact ⟨_, rfl⟩
    obtain ⟨caps, hresolved⟩ := hresolved
    obtain ⟨htiff, hdiff⟩ := hcaps h.tokens h.dollars hresolved
    exact ⟨caps, hresolved, htiff.mpr h.tokenDefault, hdiff.mpr h.dollarDefault⟩

/-! ## The creation of a run -/

/-- A run can be created. -/
def RunStarts (env : PolicyEnv) (tenant : Dict) : Prop :=
  Returns (startRun env (.ok (effectivePolicy env tenant)))

/-- Both token budgets read as whole numbers, and what is stored fits its column. -/
structure RunFits (env : PolicyEnv) (tenant : Dict) : Prop where
  tokenDefault : Returns (toInt (Dict.get (installPolicies env) runTokenBudgetKey))
  tokens : ∃ budget, toInt (Dict.get (effectivePolicy env tenant) runTokenBudgetKey) = .ok budget ∧
    (budget < 2 ^ 31 ∨ runTokenBudgetMax env < 2 ^ 31)
  dollarDefault : Returns (runDollarBudgetDefault env)
  attempts : ∀ n, maxTriageAttempts env = some n → n < 2 ^ 31

theorem resolveRunTokenBudget_eq {dflt : ℤ}
    (hdflt : toInt (Dict.get (installPolicies env) runTokenBudgetKey) = .ok dflt) :
    resolveRunTokenBudget env (.ok (effectivePolicy env tenant)) =
      (toInt (Dict.get (effectivePolicy env tenant) runTokenBudgetKey)).map fun budget =>
        max 1 (min budget (runTokenBudgetMax env)) := by
  have hdefault : runTokenBudgetDefault env = .ok dflt := by
    unfold runTokenBudgetDefault
    rw [getOr_installPolicies rfl]
    exact hdflt
  unfold resolveRunTokenBudget
  simp only [hdefault, Bind.bind, Except.bind, @getOr_effectivePolicy env runTokenBudgetKey tenant rfl]
  cases toInt (Dict.get (effectivePolicy env tenant) runTokenBudgetKey) <;> rfl

theorem returns_integerColumn {n : ℤ} (h : 1 ≤ n) : Returns (integerColumn n) ↔ n < 2 ^ 31 := by
  unfold integerColumn
  split
  · rename_i hfits
    exact iff_of_true ⟨n, rfl⟩ hfits.2
  · rename_i hfits
    refine iff_of_false (not_returns_error _) fun hlt => hfits ⟨by omega, hlt⟩

theorem maxTriageAttempts_pos {n : ℤ} (h : maxTriageAttempts env = some n) : 1 ≤ n := by
  unfold maxTriageAttempts at h
  split at h
  · split at h
    · cases h
      assumption
    · cases h
  · cases h

theorem runStarts_iff : RunStarts env tenant ↔ RunFits env tenant := by
  have hmax : 0 < runTokenBudgetMax env := positiveInt_pos _ (by norm_num)
  constructor
  · intro ⟨row, h⟩
    obtain ⟨tokens, htokens, h⟩ := (bind_eq_ok _ _ _).mp h
    obtain ⟨dollars, hdollars, h⟩ := (bind_eq_ok _ _ _).mp h
    obtain ⟨tokens', hcolumn, h⟩ := (bind_eq_ok _ _ _).mp h
    obtain ⟨dflt, hdflt⟩ : Returns (toInt (Dict.get (installPolicies env) runTokenBudgetKey)) := by
      obtain ⟨_, -, hread⟩ := (bind_eq_ok _ _ _).mp htokens
      obtain ⟨dflt, hdflt, -⟩ := (bind_eq_ok _ _ _).mp hread
      unfold runTokenBudgetDefault at hdflt
      rw [getOr_installPolicies rfl] at hdflt
      exact ⟨dflt, hdflt⟩
    obtain ⟨dollarDefault, hdollarDefault, -⟩ := (bind_eq_ok _ _ _).mp hdollars
    rw [resolveRunTokenBudget_eq hdflt] at htokens
    refine ⟨⟨dflt, hdflt⟩, ?_, ⟨dollarDefault, hdollarDefault⟩, ?_⟩
    · cases hread : toInt (Dict.get (effectivePolicy env tenant) runTokenBudgetKey) with
      | error e =>
        rw [hread] at htokens
        cases htokens
      | ok budget =>
        rw [hread] at htokens
        have heq : max 1 (min budget (runTokenBudgetMax env)) = tokens := by
          simpa [Except.map] using htokens
        have hfits := (returns_integerColumn (by omega)).mp ⟨tokens', hcolumn⟩
        exact ⟨budget, rfl, by omega⟩
    · intro n hn
      rw [hn] at h
      obtain ⟨n', hcolumn, -⟩ := (bind_eq_ok _ _ _).mp h
      exact (returns_integerColumn (maxTriageAttempts_pos hn)).mp ⟨n', hcolumn⟩
  · intro h
    obtain ⟨dflt, hdflt⟩ := h.tokenDefault
    obtain ⟨budget, hbudget, hfits⟩ := h.tokens
    obtain ⟨dollarDefault, hdollarDefault⟩ := h.dollarDefault
    have htokens := @resolveRunTokenBudget_eq env tenant _ hdflt
    rw [hbudget] at htokens
    have hdollars : Returns (resolveRunDollarBudget env (.ok (effectivePolicy env tenant))) := by
      obtain ⟨hclamped, hfallback⟩ := @resolveRunDollarBudget_eq env tenant _ hdollarDefault
      by_cases hread : ReadsFinite (Dict.get (effectivePolicy env tenant) runDollarBudgetKey)
      · obtain ⟨q, hq⟩ := hread
        exact ⟨_, hclamped q hq⟩
      · exact ⟨_, hfallback hread⟩
    unfold RunStarts startRun
    rw [htokens]
    refine (returns_ok _).bind fun tokens ht => ?_
    refine hdollars.bind fun dollars _ => ?_
    have htokens' : max 1 (min budget (runTokenBudgetMax env)) = tokens := by
      simpa [Except.map] using ht
    refine ((returns_integerColumn (by omega)).mpr (by omega)).bind fun tokens' _ => ?_
    cases hn : maxTriageAttempts env with
    | none => exact ⟨_, rfl⟩
    | some n =>
      exact ((returns_integerColumn (maxTriageAttempts_pos hn)).mpr (h.attempts n hn)).bind
        fun n' _ => ⟨_, rfl⟩

end

/-- A stored token budget that is no number. -/
def junkTokens : Dict := [(runTokenBudgetKey, .str "abc")]

/-- A stored dollar budget that is no number. -/
def junkDollars : Dict := [(runDollarBudgetKey, .str "abc")]

/-- At most a dollar for a run and ten a day for a tenant. -/
def lowMaxima : PolicyEnv := { runDollarBudgetMax := some "1", tenantDailyDollarCapMax := some "10" }

end SocTalk.Policies
