import SocTalk.TriagePolicy.Guard

/-! The guard only raises caution: the rules by which it decides, and exactly when a close
commits. -/
namespace SocTalk.TriagePolicy
open Py Authorization

/-! ## The rules of the guard -/

/-- The guard's decision, read off its edges in their order. -/
inductive Ruling (g : GuardInput) (cls : AuthzClass) (ctx : Dict) (r : GuardResult) : Prop
  | edge (o : GuardOverride) (hedge : codeEdge g cls = some o) (hover : r.overrides = [o])
      (hfinal : r.finalDecision = "escalate")
  | override (rules : List Value) (o : GuardOverride) (hedge : codeEdge g cls = none)
      (hrules : g.guardrails.iter = .ok rules)
      (hfire : firstGuardrail ctx g.verdictDecision 0 rules = some o)
      (heffect : o.effect = .override) (hover : r.overrides = [o])
      (hfinal : r.finalDecision = o.toDecision)
  | interrupt (rules : List Value) (o : GuardOverride) (hedge : codeEdge g cls = none)
      (hrules : g.guardrails.iter = .ok rules)
      (hfire : firstGuardrail ctx g.verdictDecision 0 rules = some o)
      (heffect : o.effect = .interrupt) (hover : r.overrides = [o])
      (hfinal : r.finalDecision = g.verdictDecision) (hheld : r.interrupted = true)
  | signoff (rules : List Value) (o : GuardOverride) (hedge : codeEdge g cls = none)
      (hrules : g.guardrails.iter = .ok rules)
      (hfire : firstGuardrail ctx g.verdictDecision 0 rules = none)
      (hsign : signoffEdge g = .ok (some o)) (hover : r.overrides = [o])
      (hfinal : r.finalDecision = g.verdictDecision) (hheld : r.interrupted = true)
  | pass (rules : List Value) (hedge : codeEdge g cls = none)
      (hrules : g.guardrails.iter = .ok rules)
      (hfire : firstGuardrail ctx g.verdictDecision 0 rules = none)
      (hsign : signoffEdge g = .ok none) (hover : r.overrides = [])
      (hfinal : r.finalDecision = g.verdictDecision)
      (hheld : r.interrupted = decide (g.verdictDecision = "close" ∧ g.intelUnavailable = true))

/-- What is ruled on is the derived class and the contract context of the input. -/
theorem evaluateGuard_ruling {g : GuardInput} {r : GuardResult} (h : evaluateGuard g = .ok r) :
    ∃ comps, deriveAuthzClass g.context = .ok (r.authzClass, comps) ∧
      r.conditionCtx = conditionContext g r.authzClass comps ∧
      Ruling g r.authzClass r.conditionCtx r := by
  unfold evaluateGuard at h
  obtain ⟨⟨cls, comps⟩, hcls, h⟩ := (bind_eq_ok _ _ _).mp h
  refine ⟨comps, ?_⟩
  cases hedge : codeEdge g cls with
  | some o =>
    simp only [hedge] at h
    obtain rfl := (pure_eq_ok _ _).mp h
    exact ⟨hcls, rfl, .edge o hedge rfl rfl⟩
  | none =>
    simp only [hedge] at h
    obtain ⟨rules, hrules, h⟩ := (bind_eq_ok _ _ _).mp h
    cases hfire : firstGuardrail (conditionContext g cls comps) g.verdictDecision 0 rules with
    | some o =>
      simp only [hfire] at h
      cases heffect : o.effect with
      | override =>
        rw [heffect, if_pos rfl] at h
        obtain rfl := (pure_eq_ok _ _).mp h
        exact ⟨hcls, rfl, .override rules o hedge hrules hfire heffect rfl rfl⟩
      | interrupt =>
        rw [heffect, if_neg (by simp)] at h
        obtain rfl := (pure_eq_ok _ _).mp h
        exact ⟨hcls, rfl, .interrupt rules o hedge hrules hfire heffect rfl rfl rfl⟩
    | none =>
      simp only [hfire] at h
      obtain ⟨signoff, hsign, h⟩ := (bind_eq_ok _ _ _).mp h
      cases signoff with
      | some o =>
        obtain rfl := (pure_eq_ok _ _).mp h
        exact ⟨hcls, rfl, .signoff rules o hedge hrules hfire hsign rfl rfl rfl⟩
      | none =>
        obtain rfl := (pure_eq_ok _ _).mp h
        exact ⟨hcls, rfl, .pass rules hedge hrules hfire hsign rfl rfl rfl⟩

/-! ## Guardrails -/

/-- The rule's condition holds and its effect raises the draft or stops it. -/
def Fires (ctx : Dict) (draft : String) (rule : Value) : Prop :=
  ∃ r, rule = .dict r ∧ evaluateCondition (Dict.get r "when") ctx = true ∧
    (((Dict.get r "effect").eq (.str "override") = true ∧
        nonRaising ((Dict.get r "to").orElse (.str "")).toText draft = false) ∨
      (Dict.get r "effect").eq (.str "interrupt") = true)

/-- No effect is both of the two. -/
theorem not_override_of_interrupt {v : Value} (h : v.eq (.str "interrupt") = true) :
    v.eq (.str "override") = false := by
  cases v <;> simp_all [Value.eq, Value.num?, Value.text?]

theorem fireGuardrail_eq_none_iff {ctx : Dict} {draft : String} {i : ℕ} {rule : Value} :
    fireGuardrail ctx draft i rule = none ↔ ¬Fires ctx draft rule := by
  unfold Fires
  cases rule with
  | dict r =>
    simp only [fireGuardrail]
    cases hwhen : evaluateCondition (Dict.get r "when") ctx with
    | false => simp [hwhen]
    | true =>
      cases hover : (Dict.get r "effect").eq (.str "override") with
      | true =>
        have hint : (Dict.get r "effect").eq (.str "interrupt") = false := by
          by_contra hne
          rw [not_override_of_interrupt (Bool.eq_true_of_not_eq_false hne)] at hover
          cases hover
        cases hraise : nonRaising ((Dict.get r "to").orElse (.str "")).toText draft <;>
          simp [hwhen, hover, hint, hraise]
      | false =>
        cases hint : (Dict.get r "effect").eq (.str "interrupt") <;> simp [hwhen, hover, hint]
  | _ => simp [fireGuardrail]

theorem firstGuardrail_eq_none_iff {ctx : Dict} {draft : String} {rules : List Value} :
    ∀ i, firstGuardrail ctx draft i rules = none ↔ ∀ rule ∈ rules, ¬Fires ctx draft rule := by
  induction rules with
  | nil => simp [firstGuardrail]
  | cons rule rules ih =>
    intro i
    rw [firstGuardrail, List.forall_mem_cons, ← fireGuardrail_eq_none_iff, ← ih (i + 1)]
    cases hfire : fireGuardrail ctx draft i rule with
    | some o => simp
    | none => simp

/-- An override of a guardrail moves the draft up the ladder. -/
theorem raising_of_fireGuardrail {ctx : Dict} {draft : String} {i : ℕ} {rule : Value}
    {o : GuardOverride} (h : fireGuardrail ctx draft i rule = some o)
    (heffect : o.effect = .override) : nonRaising o.toDecision draft = false := by
  unfold fireGuardrail at h
  cases rule with
  | dict r =>
    dsimp only at h
    split at h
    · cases h
    split at h
    · split at h
      · cases h
      · obtain rfl := Option.some.inj h
        exact Bool.eq_false_of_not_eq_true ‹_›
    · split at h
      · obtain rfl := Option.some.inj h
        cases heffect
      · cases h
  | _ => cases h

theorem raising_of_firstGuardrail {ctx : Dict} {draft : String} {o : GuardOverride}
    (heffect : o.effect = .override) {rules : List Value} :
    ∀ i, firstGuardrail ctx draft i rules = some o → nonRaising o.toDecision draft = false := by
  induction rules with
  | nil => exact fun _ h => by cases h
  | cons rule rules ih =>
    intro i h
    rw [firstGuardrail] at h
    cases hfire : fireGuardrail ctx draft i rule with
    | some o' =>
      simp only [hfire] at h
      obtain rfl := Option.some.inj h
      exact raising_of_fireGuardrail hfire heffect
    | none =>
      simp only [hfire] at h
      exact ih (i + 1) h

theorem nonRaising_eq_false {target draft : String} (h : nonRaising target draft = false) :
    ∃ p q, decisionRank target = some p ∧ decisionRank draft = some q ∧ q < p := by
  unfold nonRaising at h
  cases hp : decisionRank target with
  | none => simp [hp] at h
  | some p =>
    cases hq : decisionRank draft with
    | none => simp [hp, hq] at h
    | some q =>
      simp only [hp, hq, decide_eq_false_iff_not] at h
      exact ⟨p, q, rfl, rfl, by omega⟩

theorem decisionRank_le {decision : String} {q : ℕ} (h : decisionRank decision = some q) :
    q ≤ 2 := by
  unfold decisionRank at h
  split at h
  case h_4 => cases h
  all_goals
    have hq := Option.some.inj h
    omega

/-! ## Sign-off -/

/-- The asset's data class is among those whose closes an operator signs off. -/
def NeedsSignoff (g : GuardInput) : Prop :=
  ∃ dataClass classes, assetDataClassification g.context = some dataClass ∧
    g.closeSignoffDataClasses.iter = .ok classes ∧ ∃ c ∈ classes, lower c.toText = dataClass

theorem iter_of_not_truthy {v : Value} (h : v.truthy = false) {xs : List Value}
    (hiter : v.iter = .ok xs) : xs = [] := by
  cases v with
  | list ys => simp_all [Value.truthy, Value.iter]
  | dict kvs => simp_all [Value.truthy, Value.iter]
  | str s => simp_all [Value.truthy, Value.iter]
  | enum s => simp_all [Value.truthy, Value.iter]
  | _ => cases hiter

theorem signoffEdge_isSome {g : GuardInput} {s : Option GuardOverride}
    (hdraft : g.verdictDecision = "close") (h : signoffEdge g = .ok s) :
    s.isSome = true ↔ NeedsSignoff g := by
  unfold signoffEdge at h
  unfold NeedsSignoff
  split at h
  · split at h
    · rename_i hclass
      obtain rfl := (pure_eq_ok _ _).mp h
      simp [hclass]
    · rename_i dataClass hclass
      obtain ⟨classes, hiter, h⟩ := (bind_eq_ok _ _ _).mp h
      split at h
      · rename_i hany
        obtain rfl := (pure_eq_ok _ _).mp h
        obtain ⟨c, hc, heq⟩ := List.any_eq_true.mp hany
        exact iff_of_true rfl ⟨dataClass, classes, hclass, hiter, c, hc, by simpa using heq⟩
      · rename_i hany
        obtain rfl := (pure_eq_ok _ _).mp h
        refine iff_of_false (by simp) ?_
        rintro ⟨dataClass', classes', hclass', hiter', c, hc, heq⟩
        obtain rfl : dataClass = dataClass' := Option.some.inj (hclass.symm.trans hclass')
        obtain rfl : classes = classes' := Except.ok.inj (hiter.symm.trans hiter')
        exact hany (List.any_eq_true.mpr ⟨c, hc, by simpa using heq⟩)
  · rename_i hnone
    obtain rfl := (pure_eq_ok _ _).mp h
    refine iff_of_false (by simp) ?_
    rintro ⟨dataClass, classes, -, hiter, c, hc, -⟩
    have hfalsy : g.closeSignoffDataClasses.truthy = false :=
      Bool.eq_false_of_not_eq_true fun htruthy => hnone ⟨hdraft, htruthy⟩
    rw [iter_of_not_truthy hfalsy hiter] at hc
    cases hc

theorem codeEdge_eq_none_iff {g : GuardInput} {cls : AuthzClass}
    (hdraft : g.verdictDecision = "close") :
    codeEdge g cls = none ↔ g.maliciousSignal = false ∧ cls ≠ .contradicted := by
  unfold codeEdge
  cases hsignal : g.maliciousSignal with
  | true => simp [hdraft]
  | false =>
    by_cases hcls : cls = .contradicted
    · simp [hdraft, hcls]
    · simp [hcls]

/-! ## The guard's law -/

/-- What has to hold for a close to commit. -/
structure Committable (g : GuardInput) (cls : AuthzClass) (ctx : Dict) : Prop where
  draft : g.verdictDecision = "close"
  benign : g.maliciousSignal = false
  uncontradicted : cls ≠ .contradicted
  informed : g.intelUnavailable = false
  unfired : ∀ rules, g.guardrails.iter = .ok rules → ∀ rule ∈ rules,
    ¬Fires ctx g.verdictDecision rule
  unsigned : ¬NeedsSignoff g

/-- An override never comes out as a close. -/
theorem Ruling.draft_of_close {g : GuardInput} {cls : AuthzClass} {ctx : Dict} {r : GuardResult}
    (h : Ruling g cls ctx r) (hclose : r.finalDecision = "close") : g.verdictDecision = "close" := by
  cases h with
  | edge o hedge hover hfinal => exact absurd (hfinal.symm.trans hclose) (by decide)
  | override rules o hedge hrules hfire heffect hover hfinal =>
    obtain ⟨p, q, hp, -, hlt⟩ := nonRaising_eq_false (raising_of_firstGuardrail heffect 0 hfire)
    rw [← hfinal, hclose] at hp
    have hzero : 0 = p := Option.some.inj hp
    omega
  | interrupt rules o hedge hrules hfire heffect hover hfinal => exact hfinal.symm.trans hclose
  | signoff rules o hedge hrules hfire hsign hover hfinal => exact hfinal.symm.trans hclose
  | pass rules hedge hrules hfire hsign hover hfinal => exact hfinal.symm.trans hclose

theorem Ruling.raises {g : GuardInput} {cls : AuthzClass} {ctx : Dict} {r : GuardResult}
    (h : Ruling g cls ctx r) {q : ℕ} (hq : decisionRank g.verdictDecision = some q) :
    ∃ p, decisionRank r.finalDecision = some p ∧ q ≤ p := by
  cases h with
  | edge o hedge hover hfinal =>
    exact ⟨2, by rw [hfinal]; rfl, decisionRank_le hq⟩
  | override rules o hedge hrules hfire heffect hover hfinal =>
    obtain ⟨p, q', hp, hq', hlt⟩ := nonRaising_eq_false (raising_of_firstGuardrail heffect 0 hfire)
    obtain rfl : q = q' := Option.some.inj (hq.symm.trans hq')
    exact ⟨p, by rw [hfinal, hp], by omega⟩
  | interrupt rules o hedge hrules hfire heffect hover hfinal =>
    exact ⟨q, by rw [hfinal, hq], by omega⟩
  | signoff rules o hedge hrules hfire hsign hover hfinal =>
    exact ⟨q, by rw [hfinal, hq], by omega⟩
  | pass rules hedge hrules hfire hsign hover hfinal => exact ⟨q, by rw [hfinal, hq], by omega⟩

theorem Ruling.commits_iff {g : GuardInput} {cls : AuthzClass} {ctx : Dict} {r : GuardResult}
    (h : Ruling g cls ctx r) :
    r.finalDecision = "close" ∧ r.interrupted = false ↔ Committable g cls ctx := by
  have hsome : ∀ {rules : List Value} {o : GuardOverride}, g.guardrails.iter = .ok rules →
      firstGuardrail ctx g.verdictDecision 0 rules = some o → ¬Committable g cls ctx := by
    intro rules o hrules hfire hc
    have hnone := (firstGuardrail_eq_none_iff 0).mpr (hc.unfired rules hrules)
    rw [hfire] at hnone
    cases hnone
  cases h with
  | edge o hedge hover hfinal =>
    refine iff_of_false (fun hc => absurd (hfinal.symm.trans hc.1) (by decide)) fun hc => ?_
    rw [(codeEdge_eq_none_iff hc.draft).mpr ⟨hc.benign, hc.uncontradicted⟩] at hedge
    cases hedge
  | override rules o hedge hrules hfire heffect hover hfinal =>
    refine iff_of_false (fun hc => ?_) (hsome hrules hfire)
    obtain ⟨p, q, hp, hq, hlt⟩ := nonRaising_eq_false (raising_of_firstGuardrail heffect 0 hfire)
    rw [← hfinal, hc.1] at hp
    have hzero : 0 = p := Option.some.inj hp
    omega
  | interrupt rules o hedge hrules hfire heffect hover hfinal hheld =>
    exact iff_of_false (fun hc => absurd (hheld.symm.trans hc.2) (by decide)) (hsome hrules hfire)
  | signoff rules o hedge hrules hfire hsign hover hfinal hheld =>
    refine iff_of_false (fun hc => absurd (hheld.symm.trans hc.2) (by decide)) fun hc => ?_
    exact hc.unsigned ((signoffEdge_isSome hc.draft hsign).mp rfl)
  | pass rules hedge hrules hfire hsign hover hfinal hheld =>
    rw [hfinal, hheld]
    constructor
    · rintro ⟨hdraft, hintel⟩
      obtain ⟨hbenign, hcls⟩ := (codeEdge_eq_none_iff hdraft).mp hedge
      have hunsigned : ¬NeedsSignoff g := fun hneeds =>
        absurd ((signoffEdge_isSome hdraft hsign).mpr hneeds) (by decide)
      refine ⟨hdraft, hbenign, hcls, ?_, fun rules' hrules' => ?_, hunsigned⟩
      · simpa [hdraft] using hintel
      · obtain rfl : rules = rules' := Except.ok.inj (hrules.symm.trans hrules')
        exact (firstGuardrail_eq_none_iff 0).mp hfire
    · intro hc
      exact ⟨hc.draft, by simp [hc.informed]⟩

def cleanClose : GuardInput where
  verdictDecision := "close"
  context := none
  maliciousSignal := false

end SocTalk.TriagePolicy
