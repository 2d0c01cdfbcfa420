import SocTalk.TriagePolicy.Caution

/-! The audit of a shadow policy against the guard that would run it: they agree exactly where no
code edge comes before the first matching rule. -/
namespace SocTalk.TriagePolicy
open Py Authorization

/-! ## Rules as the audit sees them -/

/-- The rule's condition holds and it is no override that fails to raise the draft. -/
def matching (ctx : Dict) (draft : String) : Value → Bool
  | .dict r => evaluateCondition (Dict.get r "when") ctx &&
      !((Dict.get r "effect").eq (.str "override") &&
        nonRaising ((Dict.get r "to").orElse (.str "")).toText draft)
  | _ => false

/-- One of the effects that the guard knows. -/
def knownEffect : Value → Bool
  | .dict r => (Dict.get r "effect").eq (.str "override") ||
      (Dict.get r "effect").eq (.str "interrupt")
  | _ => false

/-- The audit names the guardrail that fired and its effect. -/
def Announces (audit : Dict) (o : GuardOverride) : Prop :=
  Dict.get audit "guardrail" = .str o.guardrail ∧
    (Dict.get audit "would_effect").eq (.str o.effect.value) = true

/-- The audits name what fired of the policy, and nothing else. -/
def Predicts (audits : List Dict) (r : GuardResult) : Prop :=
  (∀ audit ∈ audits, ∃ o ∈ r.overrides, Announces audit o) ∧
    ∀ o ∈ r.overrides, ∀ i, o.guardrail = guardrailName i → ∃ audit ∈ audits, Announces audit o

section

variable (policy : Dict) {ctx : Dict} {draft : String} (i : ℕ) {rule : Value}

theorem unmatched_rule (h : matching ctx draft rule = false) :
    shadowGuardrail policy ctx draft i rule = none ∧ fireGuardrail ctx draft i rule = none := by
  cases rule with
  | dict r =>
    simp only [matching, Bool.and_eq_false_iff, Bool.not_eq_false'] at h
    rcases h with hwhen | hskip
    · simp [shadowGuardrail, fireGuardrail, hwhen]
    · obtain ⟨hover, hraise⟩ := (Bool.and_eq_true _ _).mp hskip
      simp [shadowGuardrail, fireGuardrail, hover, hraise]
  | _ => exact ⟨rfl, rfl⟩

/-- The audit of a matching rule names its place and its effect. -/
theorem matching_rule (h : matching ctx draft rule = true) :
    ∃ r audit, rule = .dict r ∧ shadowGuardrail policy ctx draft i rule = some audit ∧
      Dict.get audit "guardrail" = .str (guardrailName i) ∧
      Dict.get audit "would_effect" = Dict.get r "effect" := by
  cases rule with
  | dict r =>
    obtain ⟨hwhen, hskip⟩ := (Bool.and_eq_true _ _).mp h
    rw [Bool.not_eq_true'] at hskip
    have hshadow : shadowGuardrail policy ctx draft i (.dict r) = some
        [("shadow", .bool true), ("triage_policy", Dict.get policy "id"),
          ("guardrail", .str (guardrailName i)), ("would_effect", Dict.get r "effect"),
          ("would_to", .str ((Dict.get r "to").orElse (.str "")).toText),
          ("reason", .str (prefixOf 512 ((Dict.get r "reason").orElse (.str "")).toText))] := by
      simp only [shadowGuardrail, hwhen, hskip, Bool.not_true, Bool.false_eq_true, if_false]
    exact ⟨r, _, rfl, hshadow, rfl, rfl⟩
  | _ => cases h

theorem fireGuardrail_eq_some {i : ℕ} {r : Dict} {o : GuardOverride}
    (h : fireGuardrail ctx draft i (.dict r) = some o) :
    o.guardrail = guardrailName i ∧ (Dict.get r "effect").eq (.str o.effect.value) = true := by
  simp only [fireGuardrail] at h
  split at h
  · cases h
  split at h
  · rename_i hover
    split at h
    · cases h
    · obtain rfl := Option.some.inj h
      exact ⟨rfl, hover⟩
  · split at h
    · rename_i hint
      obtain rfl := Option.some.inj h
      exact ⟨rfl, hint⟩
    · cases h

/-- A matching rule with an effect that the guard knows fires under the name of its place. -/
theorem fire_of_matching {r : Dict} (h : matching ctx draft (.dict r) = true)
    (heffect : knownEffect (.dict r) = true) : ∃ o, fireGuardrail ctx draft i (.dict r) = some o := by
  obtain ⟨hwhen, hskip⟩ := (Bool.and_eq_true _ _).mp h
  rw [Bool.not_eq_true', Bool.and_eq_false_iff] at hskip
  have hfires : Fires ctx draft (.dict r) := by
    refine ⟨r, rfl, hwhen, ?_⟩
    rcases (Bool.or_eq_true _ _).mp heffect with hover | hint
    · refine Or.inl ⟨hover, hskip.resolve_left fun hnot => ?_⟩
      rw [hover] at hnot
      cases hnot
    · exact Or.inr hint
  have hne : fireGuardrail ctx draft i (.dict r) ≠ none := fun hnone =>
    fireGuardrail_eq_none_iff.mp hnone hfires
  exact Option.ne_none_iff_exists'.mp hne

theorem known_of_announces {r audit : Dict} {o : GuardOverride}
    (haudit : Dict.get audit "would_effect" = Dict.get r "effect") (h : Announces audit o) :
    knownEffect (.dict r) = true := by
  have heq := h.2
  rw [haudit] at heq
  cases heffect : o.effect with
  | override =>
    rw [heffect] at heq
    exact (Bool.or_eq_true _ _).mpr (Or.inl heq)
  | interrupt =>
    rw [heffect] at heq
    exact (Bool.or_eq_true _ _).mpr (Or.inr heq)

end

/-! ## The two loops -/

section

variable (policy : Dict) {ctx : Dict} {draft : String} {rules : List Value}

theorem loops_of_unmatched (h : rules.find? (matching ctx draft) = none) :
    ∀ i, firstShadow policy ctx draft i rules = none ∧ firstGuardrail ctx draft i rules = none := by
  induction rules with
  | nil => exact fun _ => ⟨rfl, rfl⟩
  | cons rule rules ih =>
    intro i
    obtain ⟨hno, hrest⟩ := List.forall_mem_cons.mp (List.find?_eq_none.mp h)
    obtain ⟨hshadow, hfire⟩ := unmatched_rule policy i (Bool.eq_false_of_not_eq_true hno)
    rw [firstShadow, firstGuardrail, hshadow, hfire]
    exact ih (List.find?_eq_none.mpr hrest) (i + 1)

/-- Both loops come to the first matching rule; the audit stops there, and the guard does where it
knows the effect. -/
theorem loops_of_matched {rule : Value} (h : rules.find? (matching ctx draft) = some rule) :
    ∀ i, ∃ r k audit, rule = .dict r ∧ firstShadow policy ctx draft i rules = some audit ∧
      Dict.get audit "guardrail" = .str (guardrailName k) ∧
      Dict.get audit "would_effect" = Dict.get r "effect" ∧
      (knownEffect rule = true → ∃ o, firstGuardrail ctx draft i rules = some o ∧
        Announces audit o) := by
  induction rules with
  | nil => cases h
  | cons head rules ih =>
    intro i
    rw [List.find?_cons] at h
    cases hmatch : matching ctx draft head with
    | true =>
      simp only [hmatch] at h
      obtain rfl := Option.some.inj h
      obtain ⟨r, audit, rfl, hshadow, hname, heffect⟩ := matching_rule policy i hmatch
      refine ⟨r, i, audit, rfl, by rw [firstShadow, hshadow], hname, heffect, fun hknown => ?_⟩
      obtain ⟨o, hfire⟩ := fire_of_matching i hmatch hknown
      obtain ⟨ho, heq⟩ := fireGuardrail_eq_some hfire
      exact ⟨o, by rw [firstGuardrail, hfire], by rw [hname, ho], by rw [heffect]; exact heq⟩
    | false =>
      simp only [hmatch] at h
      obtain ⟨hshadow, hfire⟩ := unmatched_rule policy i hmatch
      rw [firstShadow, firstGuardrail, hshadow, hfire]
      exact ih h (i + 1)

end

/-! ## The names of the other edges -/

theorem guardrailName_ne {s : String} (i : ℕ) (h : s.toList.head? ≠ some 't') :
    s ≠ guardrailName i := by
  intro heq
  have hname : (guardrailName i).toList.head? = some 't' := by
    unfold guardrailName
    simp
  exact h (heq ▸ hname)

theorem codeEdge_ne_guardrail {g : GuardInput} {cls : AuthzClass} {o : GuardOverride}
    (h : codeEdge g cls = some o) (i : ℕ) : o.guardrail ≠ guardrailName i := by
  unfold codeEdge at h
  split_ifs at h
  · obtain rfl := Option.some.inj h
    have hhead : "ioc_over_close".toList.head? ≠ some 't' := by decide
    exact guardrailName_ne i hhead
  · obtain rfl := Option.some.inj h
    have hhead : "authorization_contradicted_close".toList.head? ≠ some 't' := by decide
    exact guardrailName_ne i hhead

theorem signoffEdge_ne_guardrail {g : GuardInput} {o : GuardOverride}
    (h : signoffEdge g = .ok (some o)) (i : ℕ) : o.guardrail ≠ guardrailName i := by
  unfold signoffEdge at h
  split at h
  · split at h
    · cases h
    · obtain ⟨classes, -, h⟩ := (bind_eq_ok _ _ _).mp h
      split at h
      · obtain rfl := Option.some.inj ((pure_eq_ok _ _).mp h)
        have hhead : "sensitive_asset_close_signoff".toList.head? ≠ some 't' := by decide
        exact guardrailName_ne i hhead
      · cases h
  · cases h

/-! ## The audit of one policy -/

theorem shadowGuardrailAudits_one {policy ctx : Dict} {rules : List Value}
    (hrules : Dict.get policy "guardrails" = .list rules) (hctx : ctx ≠ []) :
    shadowGuardrailAudits [.dict policy] ctx = .ok ((firstShadow policy ctx
      ((Dict.get ctx "verdict").orElse (.str "")).toText 0 rules).toList) := by
  have hiter : ((Dict.get policy "guardrails").orElse (.list [])).iter = .ok rules := by
    rw [hrules]
    cases rules <;> rfl
  have hempty : ctx.isEmpty = false := by simpa using hctx
  unfold shadowGuardrailAudits
  simp only [hempty, Bool.false_eq_true, if_false, List.mapM_cons, List.mapM_nil, hiter]
  cases hfound : firstShadow policy ctx ((Dict.get ctx "verdict").orElse (.str "")).toText 0 rules with
  | none => simp [hfound, bind, Except.bind, pure, Except.pure]
  | some audit => simp [hfound, bind, Except.bind, pure, Except.pure]

/-- The audits of a list of policies are those of its parts, in order. -/
theorem shadowGuardrailAudits_append {ctx : Dict} {xs ys : List Value} {as bs : List Dict}
    (hx : shadowGuardrailAudits xs ctx = .ok as) (hy : shadowGuardrailAudits ys ctx = .ok bs) :
    shadowGuardrailAudits (xs ++ ys) ctx = .ok (as ++ bs) := by
  unfold shadowGuardrailAudits at hx hy ⊢
  cases hempty : ctx.isEmpty with
  | true =>
    simp only [hempty, if_true] at hx hy ⊢
    obtain rfl := (pure_eq_ok _ _).mp hx
    obtain rfl := (pure_eq_ok _ _).mp hy
    rfl
  | false =>
    simp only [hempty, Bool.false_eq_true, if_false] at hx hy ⊢
    obtain ⟨found, hfound, hx⟩ := (bind_eq_ok _ _ _).mp hx
    obtain ⟨found', hfound', hy⟩ := (bind_eq_ok _ _ _).mp hy
    obtain rfl := (pure_eq_ok _ _).mp hx
    obtain rfl := (pure_eq_ok _ _).mp hy
    rw [List.mapM_append, hfound, hfound']
    exact congrArg Except.ok (List.filterMap_append ..)

theorem draft_of_ctx (g : GuardInput) (cls : AuthzClass)
    (comps : Option AuthorizationComponents) :
    ((Dict.get (conditionContext g cls comps) "verdict").orElse (.str "")).toText =
      g.verdictDecision := by
  show ((Value.str g.verdictDecision).orElse (.str "")).toText = g.verdictDecision
  unfold Value.orElse
  split
  · rfl
  · rename_i hfalsy
    have hdraft : g.verdictDecision = "" := by simpa [Value.truthy] using hfalsy
    rw [hdraft]
    rfl

theorem predicts_nil {r : GuardResult} (h : ∀ o ∈ r.overrides, ∀ i, o.guardrail ≠ guardrailName i) :
    Predicts [] r :=
  ⟨fun _ haudit => absurd haudit List.not_mem_nil, fun o ho i hi => absurd hi (h o ho i)⟩

/-- No audit stands for an edge that is no guardrail. -/
theorem not_predicts {r : GuardResult} {audit : Dict} {k : ℕ}
    (hname : Dict.get audit "guardrail" = .str (guardrailName k))
    (h : ∀ o ∈ r.overrides, o.guardrail ≠ guardrailName k) : ¬Predicts [audit] r := by
  intro hp
  obtain ⟨o, ho, hannounce, -⟩ := hp.1 audit List.mem_cons_self
  rw [hname] at hannounce
  exact h o ho (Value.str.inj hannounce).symm

section

variable {g : GuardInput} {cls : AuthzClass} {ctx : Dict} {r : GuardResult}

/-- A ruling of another edge is foreseen if no rule of the policy matches, and only then. -/
theorem predicts_other {policy : Dict} {rules : List Value} {draft : String}
    (hother : ∀ o ∈ r.overrides, ∀ i, o.guardrail ≠ guardrailName i) :
    Predicts (firstShadow policy ctx draft 0 rules).toList r ↔
      rules.find? (matching ctx draft) = none := by
  cases hfind : rules.find? (matching ctx draft) with
  | none =>
    rw [(loops_of_unmatched policy hfind 0).1]
    exact iff_of_true (predicts_nil hother) rfl
  | some rule =>
    obtain ⟨d, k, audit, -, hshadow, hname, -⟩ := loops_of_matched policy hfind 0
    rw [hshadow]
    exact iff_of_false (not_predicts hname fun o ho => hother o ho k) (by simp)

/-- Where no code edge fires, the audit is right if the guard knows the first matching rule's
effect, and only then. -/
theorem predicts_fired {policy : Dict} {rules : List Value} {draft : String}
    (hover : ∀ o, o ∈ r.overrides ↔ firstGuardrail ctx draft 0 rules = some o) :
    Predicts (firstShadow policy ctx draft 0 rules).toList r ↔
      ∀ rule, rules.find? (matching ctx draft) = some rule → knownEffect rule = true := by
  cases hfind : rules.find? (matching ctx draft) with
  | none =>
    obtain ⟨hshadow, hfire⟩ := loops_of_unmatched policy hfind 0
    rw [hshadow]
    refine iff_of_true (predicts_nil fun o ho => ?_) (by simp)
    rw [hover, hfire] at ho
    cases ho
  | some rule =>
    obtain ⟨d, k, audit, rfl, hshadow, hname, heffect, hknown⟩ := loops_of_matched policy hfind 0
    rw [hshadow]
    constructor
    · intro hp rule' hrule'
      obtain rfl := Option.some.inj hrule'
      obtain ⟨o, -, hannounce⟩ := hp.1 audit List.mem_cons_self
      exact known_of_announces heffect hannounce
    · intro h
      obtain ⟨o, hfire, hannounce⟩ := hknown (h _ rfl)
      have ho : o ∈ r.overrides := (hover o).mpr hfire
      constructor
      · intro a ha
        obtain rfl := List.mem_singleton.mp ha
        exact ⟨o, ho, hannounce⟩
      · intro o' ho' i hi
        have hfire' := (hover o').mp ho'
        obtain rfl : o = o' := Option.some.inj (hfire.symm.trans hfire')
        exact ⟨audit, List.mem_cons_self, hannounce⟩

theorem Ruling.predicts_iff {policy : Dict} {rules : List Value}
    (h : Ruling g cls ctx r) (hrules : g.guardrails = .list rules) :
    Predicts (firstShadow policy ctx g.verdictDecision 0 rules).toList r ↔
      ∀ rule, rules.find? (matching ctx g.verdictDecision) = some rule →
        codeEdge g cls = none ∧ knownEffect rule = true := by
  have hiter : ∀ {rules' : List Value}, g.guardrails.iter = .ok rules' → rules = rules' := by
    intro rules' h'
    rw [hrules] at h'
    exact Except.ok.inj h'
  cases h with
  | edge o hedge hover hfinal =>
    rw [predicts_other fun o' ho' => by
      rw [hover, List.mem_singleton] at ho'
      exact ho' ▸ codeEdge_ne_guardrail hedge]
    simp [hedge, ← Option.eq_none_iff_forall_ne_some]
  | override rules' o hedge hrules' hfire heffect hover hfinal =>
    obtain rfl := hiter hrules'
    simpa [hedge] using predicts_fired fun o' => by
      rw [hover, hfire, List.mem_singleton, Option.some_inj, eq_comm]
  | interrupt rules' o hedge hrules' hfire heffect hover hfinal hheld =>
    obtain rfl := hiter hrules'
    simpa [hedge] using predicts_fired fun o' => by
      rw [hover, hfire, List.mem_singleton, Option.some_inj, eq_comm]
  | signoff rules' o hedge hrules' hfire hsign hover hfinal hheld =>
    obtain rfl := hiter hrules'
    have hsign' : ∀ o' ∈ r.overrides, ∀ i, o'.guardrail ≠ guardrailName i := by
      intro o' ho'
      rw [hover, List.mem_singleton] at ho'
      exact ho' ▸ signoffEdge_ne_guardrail hsign
    rw [predicts_other hsign']
    constructor
    · intro hnone rule hrule
      rw [hnone] at hrule
      cases hrule
    · intro hall
      -- A known first match would have fired before the sign-off rule.
      by_contra hsome
      obtain ⟨rule, hrule⟩ := Option.ne_none_iff_exists'.mp hsome
      obtain ⟨d, k, audit, -, -, -, -, hknown⟩ := loops_of_matched policy hrule 0
      obtain ⟨o', hfire', -⟩ := hknown (hall rule hrule).2
      rw [hfire] at hfire'
      cases hfire'
  | pass rules' hedge hrules' hfire hsign hover hfinal hheld =>
    obtain rfl := hiter hrules'
    simpa [hedge] using predicts_fired fun o' => by
      simp [hover, hfire]

end

/-- What the guard would be called with were the policy the active one. -/
def GuardInput.under (g : GuardInput) (rules classes : Value) : GuardInput :=
  { g with guardrails := rules, closeSignoffDataClasses := classes }

/-- On the context of an active evaluation, the audit of a shadow policy names what the guard would
fire of it exactly if either no rule of it matches, or no code edge fires and the first that
matches has an effect that the guard knows. -/
theorem shadow_predicts_iff {g : GuardInput} {r₀ r : GuardResult} {policy : Dict}
    {rules : List Value} {classes : Value} (hrules : Dict.get policy "guardrails" = .list rules)
    (hactive : evaluateGuard g = .ok r₀)
    (hlive : evaluateGuard (g.under (.list rules) classes) = .ok r) :
    ∃ audits, shadowGuardrailAudits [.dict policy] r₀.conditionCtx = .ok audits ∧
      (Predicts audits r ↔
        ∀ rule, rules.find? (matching r₀.conditionCtx g.verdictDecision) = some rule →
          codeEdge g r₀.authzClass = none ∧ knownEffect rule = true) := by
  obtain ⟨comps₀, hcls₀, hctx₀, -⟩ := evaluateGuard_ruling hactive
  obtain ⟨comps, hcls, hctx, hruling⟩ := evaluateGuard_ruling hlive
  -- The contract context does not depend on the policy.
  obtain ⟨hclass, rfl⟩ : r₀.authzClass = r.authzClass ∧ comps₀ = comps :=
    Prod.mk.inj (Except.ok.inj (hcls₀.symm.trans hcls))
  have hsame : r.conditionCtx = r₀.conditionCtx := by
    rw [hctx, hctx₀, hclass]
    rfl
  have hne : r₀.conditionCtx ≠ [] := by
    rw [hctx₀]
    exact List.cons_ne_nil _ _
  have hdraft : ((Dict.get r₀.conditionCtx "verdict").orElse (.str "")).toText =
      g.verdictDecision := by
    rw [hctx₀]
    exact draft_of_ctx g r₀.authzClass comps₀
  rw [hsame, ← hclass] at hruling
  refine ⟨_, shadowGuardrailAudits_one hrules hne, ?_⟩
  rw [hdraft]
  exact hruling.predicts_iff rfl

def holdRule : Value :=
  .dict [("when", .dict [("==", .list [.dict [("var", .str "verdict")], .str "close"])]),
    ("effect", .str "interrupt"), ("to", .str "human_review"), ("reason", .str "second look")]

/-- A shadow policy that would hold every close. -/
def holdCloses : Dict := [("id", .str "hold"), ("guardrails", .list [holdRule])]

def maliciousClose : GuardInput where
  verdictDecision := "close"
  context := none
  maliciousSignal := true

/-- The audit of a malicious close names a guardrail, and the guard fires the code's edge. -/
theorem shadow_mispredicts :
    ∃ r audit, evaluateGuard (maliciousClose.under (.list [holdRule]) (.list [])) = .ok r ∧
      r.overrides.map (·.guardrail) = ["ioc_over_close"] ∧
      shadowGuardrailAudits [.dict holdCloses] r.conditionCtx = .ok [audit] ∧
      ¬Predicts [audit] r := by
  let o : GuardOverride :=
    { guardrail := "ioc_over_close", fromDecision := "close", toDecision := "escalate",
      reason := "malicious indicators present — authorization/benign evidence " ++
        "never overrides an IOC" }
  refine ⟨{ finalDecision := "escalate", authzClass := .absent, components := none,
            overrides := [o], interrupted := false,
            conditionCtx := conditionContext maliciousClose .absent none },
    [("shadow", .bool true), ("triage_policy", .str "hold"),
      ("guardrail", .str (guardrailName 0)), ("would_effect", .str "interrupt"),
      ("would_to", .str "human_review"), ("reason", .str (prefixOf 512 "second look"))],
    rfl, rfl, rfl, ?_⟩
  refine not_predicts rfl fun o' ho' => ?_
  obtain rfl := List.mem_singleton.mp ho'
  have hhead : "ioc_over_close".toList.head? ≠ some 't' := by decide
  exact guardrailName_ne 0 hhead

def plainClose : GuardInput where
  verdictDecision := "close"
  context := none
  maliciousSignal := false

/-- The audit of a close without an edge names what the guard would fire. -/
theorem shadow_predicts_plain :
    ∃ r audits, shadowGuardrailAudits [.dict holdCloses]
        (conditionContext plainClose .absent none) = .ok audits ∧
      evaluateGuard (plainClose.under (.list [holdRule]) (.list [])) = .ok r ∧
      Predicts audits r := by
  have hactive : evaluateGuard plainClose = .ok
      { finalDecision := "close", authzClass := .absent, components := none, overrides := [],
        interrupted := false, conditionCtx := conditionContext plainClose .absent none } := rfl
  have hlive : evaluateGuard (plainClose.under (.list [holdRule]) (.list [])) = .ok
      { finalDecision := "close", authzClass := .absent, components := none,
        overrides := [{ guardrail := guardrailName 0, effect := .interrupt,
                        fromDecision := "close", toDecision := "human_review",
                        reason := prefixOf 512 "second look" }],
        interrupted := true, conditionCtx := conditionContext plainClose .absent none } := rfl
  have hrules : Dict.get holdCloses "guardrails" = .list [holdRule] := rfl
  obtain ⟨audits, haudits, hiff⟩ := shadow_predicts_iff hrules hactive hlive
  refine ⟨_, audits, haudits, hlive, hiff.mpr fun rule hrule => ⟨rfl, ?_⟩⟩
  obtain rfl := List.mem_singleton.mp (List.mem_of_find?_eq_some hrule)
  decide

end SocTalk.TriagePolicy
