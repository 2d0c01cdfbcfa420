import SocTalk.Authorization.Engine
import SocTalk.TriagePolicy.Conditions

/-! The post-verdict guard: whether a drafted verdict commits, is overridden, or waits
for a human. -/
namespace SocTalk.TriagePolicy
open Py Authorization

/-- The raise-only ladder of decisions. -/
def decisionRank : String → Option ℕ
  | "close" => some 0
  | "needs_more_info" => some 1
  | "escalate" => some 2
  | _ => none

inductive Effect where
  | override
  | interrupt
  deriving DecidableEq

def Effect.value : Effect → String
  | .override => "override"
  | .interrupt => "interrupt"

/-- One fired guardrail. -/
structure GuardOverride where
  guardrail : String
  effect : Effect := .override
  fromDecision : String
  toDecision : String
  reason : String
  deriving DecidableEq

structure GuardResult where
  finalDecision : String
  authzClass : AuthzClass
  components : Option AuthorizationComponents
  overrides : List GuardOverride
  interrupted : Bool
  conditionCtx : Dict

def GuardResult.overridden (r : GuardResult) : Bool := r.overrides.any (·.effect == .override)

/-- What the guard is called with. -/
structure GuardInput where
  verdictDecision : String
  context : Option AuthorizationContext
  maliciousSignal : Bool
  closeSignoffDataClasses : Value := .list []
  guardrails : Value := .list []
  verdictConfidence : Option FloatVal := none
  activeIncident : Bool := false
  intelUnavailable : Bool := false

/-- The trust-resolved asset of an account-track activity. -/
def assetRecord (context : AuthorizationContext) (host : String) : Option EntityContextFact :=
  resolvedEntity (selectFacts context.facts context.activity.track context.tenant) .asset host

def assetDataClassification (context : Option AuthorizationContext) : Option String := do
  let context ← context
  if context.activity.track ≠ .account then none
  let host ← context.activity.host
  if host = "" then none
  let asset ← assetRecord context host
  let dataClassification ← asset.dataClassification
  return lower dataClassification

private def optText : Option String → Value
  | some s => .str s
  | none => .none

/-- The read-only contract declarative conditions run against. -/
def conditionContext (g : GuardInput) (authzClass : AuthzClass)
    (components : Option AuthorizationComponents) : Dict :=
  let asset := g.context.bind fun context =>
    if context.activity.track = .account then
      assetRecord context (context.activity.host.getD "")
    else none
  let confidence := match g.verdictConfidence with
    | some x => Value.float x
    | none => .none
  [("authz", .dict
      [("class", .str authzClass.value),
        ("in_scope", .bool ((components.map (·.inScope)).getD false)),
        ("sanctioned_or_routine", .bool ((components.map (·.sanctionedOrRoutine)).getD false)),
        ("actor_genuine", .bool ((components.map (·.actorGenuine)).getD true)),
        ("policy_allowed", .bool ((components.map (·.policyAllowed)).getD true))]),
    ("verdict", .str g.verdictDecision),
    ("verdict_confidence", confidence),
    ("asset", .dict
      [("data_classification", optText (assetDataClassification g.context)),
        ("environment", optText (asset.bind (·.environment))),
        ("criticality", optText (asset.bind (·.criticality)))]),
    ("enrichment", .dict [("ioc", .bool g.maliciousSignal)]),
    ("correlation", .dict [("active_incident", .bool g.activeIncident)])]

/-! ## The edges -/

/-- The code edges: malicious signal first, then contradicted authorization. -/
def codeEdge (g : GuardInput) (authzClass : AuthzClass) : Option GuardOverride :=
  if g.verdictDecision = "close" ∧ g.maliciousSignal then
    some { guardrail := "ioc_over_close", fromDecision := "close", toDecision := "escalate",
           reason := "malicious indicators present — authorization/benign evidence " ++
             "never overrides an IOC" }
  else if g.verdictDecision = "close" ∧ authzClass = .contradicted then
    some { guardrail := "authorization_contradicted_close", fromDecision := "close",
           toDecision := "escalate",
           reason := "authorization records present but do not cover this activity — " ++
             "acting outside the terms of an authorization is the finding" }
  else none

/-- The rank test `DECISION_RANK.get(to, -1) <= DECISION_RANK.get(draft, 99)`. -/
def nonRaising (target draft : String) : Bool :=
  match decisionRank target, decisionRank draft with
  | some r, some q => r ≤ q
  | _, _ => true

def guardrailName (i : ℕ) : String := "triage_policy_guardrail_" ++ toString i

/-- What the `i`-th rule of a policy does to the draft, if it fires. -/
def fireGuardrail (ctx : Dict) (draft : String) (i : ℕ) (rule : Value) : Option GuardOverride :=
  match rule with
  | .dict r =>
    if !evaluateCondition (Dict.get r "when") ctx then none
    else
      let effect := Dict.get r "effect"
      let target := ((Dict.get r "to").orElse (.str "")).toText
      let reason := prefixOf 512
        ((Dict.get r "reason").orElse (.str "triage policy guardrail")).toText
      if effect.eq (.str "override") then
        -- Raise-only: an override that does not raise never fires.
        if nonRaising target draft then none
        else some { guardrail := guardrailName i, fromDecision := draft, toDecision := target,
                    reason := reason }
      else if effect.eq (.str "interrupt") then
        some { guardrail := guardrailName i, effect := .interrupt, fromDecision := draft,
               toDecision := "human_review", reason := reason }
      else none
  | _ => none

/-- First match wins. -/
def firstGuardrail (ctx : Dict) (draft : String) : ℕ → List Value → Option GuardOverride
  | _, [] => none
  | i, rule :: rules =>
    match fireGuardrail ctx draft i rule with
    | some o => some o
    | none => firstGuardrail ctx draft (i + 1) rules

/-- The built-in sign-off rule on sensitive assets. -/
def signoffEdge (g : GuardInput) : M (Option GuardOverride) := do
  if g.verdictDecision = "close" ∧ g.closeSignoffDataClasses.truthy then
    match assetDataClassification g.context with
    | none => return none
    | some dataClass =>
      let classes ← g.closeSignoffDataClasses.iter
      if classes.any fun c => lower c.toText == dataClass then
        return some
          { guardrail := "sensitive_asset_close_signoff", effect := .interrupt,
            fromDecision := "close", toDecision := "human_review",
            reason := "close on a " ++ dataClass ++ "-classified asset requires human " ++
              "sign-off — the draft stands, a human disposes" }
      else return none
  else return none

theorem codeEdge_effect {g : GuardInput} {c : AuthzClass} {o : GuardOverride}
    (h : codeEdge g c = some o) : o.effect = .override := by
  unfold codeEdge at h
  split_ifs at h <;> cases h <;> rfl

theorem codeEdge_toDecision {g : GuardInput} {c : AuthzClass} {o : GuardOverride}
    (h : codeEdge g c = some o) : o.toDecision = "escalate" := by
  unfold codeEdge at h
  split_ifs at h <;> cases h <;> rfl

theorem signoffEdge_effect {g : GuardInput} {o : GuardOverride}
    (h : signoffEdge g = .ok (some o)) : o.effect = .interrupt := by
  unfold signoffEdge at h
  split at h
  · split at h
    · cases h
    · obtain ⟨classes, -, h⟩ := (bind_eq_ok _ _ _).mp h
      split at h <;> cases h
      rfl
  · cases h

/-- The guard's whole decision. -/
def evaluateGuard (g : GuardInput) : M GuardResult := do
  let (authzClass, components) ← deriveAuthzClass g.context
  let ctx := conditionContext g authzClass components
  let result : String → List GuardOverride → Bool → GuardResult := fun final overrides i =>
    { finalDecision := final, authzClass := authzClass, components := components,
      overrides := overrides, interrupted := i, conditionCtx := ctx }
  match codeEdge g authzClass with
  | some o => return result "escalate" [o] false
  | none =>
    -- A close on intelligence that never answered waits for a human.
    let interrupted := g.verdictDecision = "close" ∧ g.intelUnavailable = true
    let rules ← g.guardrails.iter
    match firstGuardrail ctx g.verdictDecision 0 rules with
    | some o =>
      if o.effect = .override then return result o.toDecision [o] interrupted
      else return result g.verdictDecision [o] true
    | none =>
      match ← signoffEdge g with
      | some o => return result g.verdictDecision [o] true
      | none => return result g.verdictDecision [] interrupted

/-- No edge fires: neither the code's, nor a guardrail, nor the sign-off rule. -/
def Quiet (g : GuardInput) : Prop :=
  ∃ authzClass components rules, deriveAuthzClass g.context = .ok (authzClass, components) ∧
    codeEdge g authzClass = none ∧ g.guardrails.iter = .ok rules ∧
    firstGuardrail (conditionContext g authzClass components) g.verdictDecision 0 rules = none ∧
    signoffEdge g = .ok none

/-- The three ways the guard returns: nothing fires, an override fires, an interrupt fires. -/
theorem evaluateGuard_eq_ok {g : GuardInput} {r : GuardResult} (h : evaluateGuard g = .ok r) :
    (Quiet g ∧ r.overrides = [] ∧ r.finalDecision = g.verdictDecision ∧
      r.interrupted = decide (g.verdictDecision = "close" ∧ g.intelUnavailable = true)) ∨
    (∃ o, r.overrides = [o] ∧ o.effect = .override ∧ r.finalDecision = o.toDecision) ∨
    (∃ o, r.overrides = [o] ∧ o.effect = .interrupt ∧ r.finalDecision = g.verdictDecision ∧
      r.interrupted = true) := by
  unfold evaluateGuard at h
  obtain ⟨⟨authzClass, components⟩, hcls, h⟩ := (bind_eq_ok _ _ _).mp h
  cases hedge : codeEdge g authzClass with
  | some o =>
    simp only [hedge] at h
    obtain rfl := (pure_eq_ok _ _).mp h
    exact Or.inr (Or.inl ⟨o, rfl, codeEdge_effect hedge, (codeEdge_toDecision hedge).symm⟩)
  | none =>
    simp only [hedge] at h
    obtain ⟨rules, hrules, h⟩ := (bind_eq_ok _ _ _).mp h
    cases hfire : firstGuardrail (conditionContext g authzClass components) g.verdictDecision 0
        rules with
    | some o =>
      simp only [hfire] at h
      cases heff : o.effect with
      | override =>
        rw [heff, if_pos rfl] at h
        obtain rfl := (pure_eq_ok _ _).mp h
        exact Or.inr (Or.inl ⟨o, rfl, heff, rfl⟩)
      | interrupt =>
        rw [heff, if_neg (by simp)] at h
        obtain rfl := (pure_eq_ok _ _).mp h
        exact Or.inr (Or.inr ⟨o, rfl, heff, rfl, rfl⟩)
    | none =>
      simp only [hfire] at h
      obtain ⟨signoff, hsign, h⟩ := (bind_eq_ok _ _ _).mp h
      cases signoff with
      | some o =>
        obtain rfl := (pure_eq_ok _ _).mp h
        exact Or.inr (Or.inr ⟨o, rfl, signoffEdge_effect hsign, rfl, rfl⟩)
      | none =>
        obtain rfl := (pure_eq_ok _ _).mp h
        have hquiet : Quiet g := ⟨authzClass, components, rules, hcls, hedge, hrules, hfire, hsign⟩
        exact Or.inl ⟨hquiet, rfl, rfl, rfl⟩

theorem overrides_eq_nil_iff {g : GuardInput} {r : GuardResult} (h : evaluateGuard g = .ok r) :
    r.overrides = [] ↔ Quiet g := by
  constructor
  · intro hnil
    rcases evaluateGuard_eq_ok h with ⟨hq, -⟩ | ⟨o, ho, -⟩ | ⟨o, ho, -⟩
    · exact hq
    · simp [ho] at hnil
    · simp [ho] at hnil
  · rintro ⟨authzClass, components, rules, hcls, hedge, hrules, hfire, hsign⟩
    unfold evaluateGuard at h
    rw [hcls] at h
    simp only [hedge, hrules, hfire, hsign, bind, Except.bind] at h
    obtain rfl := (pure_eq_ok _ _).mp h
    rfl

/-! ## Shadow policies -/

/-- What the `i`-th rule of a shadow policy would have done. -/
def shadowGuardrail (policy : Dict) (ctx : Dict) (draft : String) (i : ℕ) (rule : Value) :
    Option Dict :=
  match rule with
  | .dict r =>
    if !evaluateCondition (Dict.get r "when") ctx then none
    else
      let target := ((Dict.get r "to").orElse (.str "")).toText
      if (Dict.get r "effect").eq (.str "override") && nonRaising target draft then none
      else some
        [("shadow", .bool true), ("triage_policy", Dict.get policy "id"),
          ("guardrail", .str (guardrailName i)), ("would_effect", Dict.get r "effect"),
          ("would_to", .str target),
          ("reason", .str (prefixOf 512 ((Dict.get r "reason").orElse (.str "")).toText))]
  | _ => none

def firstShadow (policy : Dict) (ctx : Dict) (draft : String) : ℕ → List Value → Option Dict
  | _, [] => none
  | i, rule :: rules =>
    match shadowGuardrail policy ctx draft i rule with
    | some audit => some audit
    | none => firstShadow policy ctx draft (i + 1) rules

/-- Would-fire records, one at most for each shadow policy. -/
def shadowGuardrailAudits (shadowTriagePolicies : List Value) (ctx : Dict) : M (List Dict) := do
  if ctx.isEmpty then return []
  let draft := ((Dict.get ctx "verdict").orElse (.str "")).toText
  let audits ← shadowTriagePolicies.mapM fun pb => do
    match pb with
    | .dict policy =>
      let rules ← ((Dict.get policy "guardrails").orElse (.list [])).iter
      return firstShadow policy ctx draft 0 rules
    | _ => return none
  return audits.filterMap id

/-- A decision as a plain lowercase string. -/
def decisionValue : Value → String
  | .enum v => lower v
  | v => if v.truthy then lower v.toText else ""

end SocTalk.TriagePolicy
