import SocTalk.TriagePolicy.Order

/-! Facts of another tenant, of the other track and superseded ones are read by no consumer. -/
namespace SocTalk.TriagePolicy
open Py Authorization

/-- A fact that an activity of the tenant must not be judged by: stamped with another tenant or with
none, of the other track, or superseded by a fact of the list. -/
def Foreign (tenant : String) (activity : AuthorizationActivity) (facts : List AuthorizationFact)
    (f : AuthorizationFact) : Prop :=
  f.base.tenant ≠ some tenant ∨ f.base.track ≠ activity.track ∨
    ∃ g ∈ facts, f.base.supersededBy = some g.base.id

theorem Foreign.not_selected {tenant : String} {activity : AuthorizationActivity}
    {facts : List AuthorizationFact} {f : AuthorizationFact} (h : Foreign tenant activity facts f) :
    (f.base.track == activity.track &&
      ((some tenant : Option String).isNone || f.base.tenant == some tenant) &&
        f.base.supersededBy.isNone) = false := by
  rcases h with htenant | htrack | ⟨g, -, hsup⟩
  · simp [htenant]
  · simp [htrack]
  · simp [hsup]

/-- Wherever it stands, a foreign fact is not selected. -/
theorem select_foreign {tenant : String} {activity : AuthorizationActivity}
    {before after : List AuthorizationFact} {f : AuthorizationFact}
    (h : Foreign tenant activity (before ++ after) f) :
    select (before ++ f :: after) activity.track (some tenant) =
      select (before ++ after) activity.track (some tenant) := by
  unfold select
  rw [List.filter_append, List.filter_append, List.filter_cons_of_neg]
  rw [h.not_selected]
  exact Bool.false_ne_true

section

variable {c : AuthorizationContext} {facts : List AuthorizationFact}
  (h : select facts c.activity.track c.tenant = select c.facts c.activity.track c.tenant)
include h

theorem evaluateAuthorization_of_select :
    evaluateAuthorization c.activity facts c.tenant =
      evaluateAuthorization c.activity c.facts c.tenant := by
  unfold evaluateAuthorization
  rw [h]

theorem findCoveringGrants_of_select :
    findCoveringGrants c.activity facts c.tenant =
      findCoveringGrants c.activity c.facts c.tenant := by
  unfold findCoveringGrants
  rw [h]

theorem deriveAuthzClass_of_select :
    deriveAuthzClass (some { c with facts := facts }) = deriveAuthzClass (some c) := by
  unfold deriveAuthzClass
  simp only [selectFacts]
  rw [evaluateAuthorization_of_select h]
  simp only [h]
  rfl

theorem assetRecord_of_select (host : String) :
    assetRecord { c with facts := facts } host = assetRecord c host := by
  unfold assetRecord selectFacts
  rw [h]

theorem assetDataClassification_of_select :
    assetDataClassification (some { c with facts := facts }) = assetDataClassification (some c) := by
  simp only [assetDataClassification, Option.bind_eq_bind, Option.bind_some,
    assetRecord_of_select h]

theorem conditionContext_of_select (g : GuardInput) (cls : AuthzClass)
    (comps : Option AuthorizationComponents) :
    conditionContext (g.over { c with facts := facts }) cls comps =
      conditionContext (g.over c) cls comps := by
  simp only [conditionContext, GuardInput.over, assetDataClassification_of_select h,
    Option.bind_some, assetRecord_of_select h]

theorem evaluateGuard_of_select (g : GuardInput) :
    evaluateGuard (g.over { c with facts := facts }) = evaluateGuard (g.over c) :=
  evaluateGuard_congr (deriveAuthzClass_of_select h) (conditionContext_of_select h)
    (assetDataClassification_of_select h) g

end

/-- Adding or removing a foreign fact changes no evaluation, no covering grant, no class and no ruling
for an activity of the tenant. -/
theorem foreign_inert (tenant : String) (activity : AuthorizationActivity)
    (before after : List AuthorizationFact) (f : AuthorizationFact)
    (h : Foreign tenant activity (before ++ after) f) (g : GuardInput) :
    let without : AuthorizationContext := ⟨some tenant, activity, before ++ after⟩
    let added : AuthorizationContext := ⟨some tenant, activity, before ++ f :: after⟩
    evaluateAuthorization activity added.facts (some tenant) =
        evaluateAuthorization activity without.facts (some tenant) ∧
      findCoveringGrants activity added.facts (some tenant) =
        findCoveringGrants activity without.facts (some tenant) ∧
      deriveAuthzClass (some added) = deriveAuthzClass (some without) ∧
      evaluateGuard (g.over added) = evaluateGuard (g.over without) := by
  have hsel := select_foreign h
  exact ⟨evaluateAuthorization_of_select (c := ⟨some tenant, activity, before ++ after⟩) hsel,
    findCoveringGrants_of_select (c := ⟨some tenant, activity, before ++ after⟩) hsel,
    deriveAuthzClass_of_select (c := ⟨some tenant, activity, before ++ after⟩) hsel,
    evaluateGuard_of_select (c := ⟨some tenant, activity, before ++ after⟩) hsel g⟩

/-- A covering grant that carries no tenant leaves the evaluation as it was. -/
theorem foreign_inert_grant :
    let granted : AuthorizationFact := baseline "B1" none
    granted.base.tenant ≠ some "t1" ∧
      evaluateAuthorization login ([] ++ granted :: []) (some "t1") =
        evaluateAuthorization login ([] ++ []) (some "t1") :=
  ⟨by decide, (foreign_inert "t1" login [] [] (baseline "B1" none) (Or.inl (by decide))
    { verdictDecision := "close", context := none, maliciousSignal := false }).1⟩

end SocTalk.TriagePolicy
