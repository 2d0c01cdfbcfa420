import SocTalk.Authorization.Coverage
import SocTalk.TriagePolicy.Floor
import SocTalk.TriagePolicy.Order

/-! When the authorization engine, and with it the guard and the worker's floor, returns on what the
models admit: a recurring window is admitted with any text. -/
namespace SocTalk.TriagePolicy
open Py Authorization

/-- Nothing that judges the context raises. -/
structure TotalOn (c : AuthorizationContext) : Prop where
  evaluation : Returns (evaluateAuthorization c.activity c.facts c.tenant)
  classification : Returns (deriveAuthzClass (some c))
  search : Returns (findCoveringGrants c.activity c.facts c.tenant)
  guard : ∀ (g : GuardInput) (rules classes : List Value),
    Returns (evaluateGuard { g with context := some c, guardrails := .list rules,
                                    closeSignoffDataClasses := .list classes })
  floor : ∀ (validate : Value → Option AuthorizationContext) (final : Dict)
    (d : Option Disposition),
    authorizationContext validate (Dict.get final "investigation") = some c →
    Returns (hasMaliciousSignal ((Dict.get final "investigation").orElse (.dict []))) →
    ((Dict.get final "verdict").truthy = false →
      Returns (hasUnenrichedObservables ((Dict.get final "investigation").orElse (.dict [])))) →
    Returns (applyWorkerFloor validate final d)

theorem returns_deriveAuthzClass_of_evaluation {c : AuthorizationContext}
    (h : Returns (evaluateAuthorization c.activity c.facts c.tenant)) :
    Returns (deriveAuthzClass (some c)) := by
  unfold deriveAuthzClass
  refine returns_ite (fun _ => ⟨_, rfl⟩) fun _ => h.bind fun comps _ => ?_
  refine returns_ite (fun _ => ⟨_, rfl⟩) fun _ => ?_
  refine returns_ite (fun _ => ⟨_, rfl⟩) fun _ => ?_
  exact returns_ite (fun _ => ⟨_, rfl⟩) fun _ => ⟨_, rfl⟩

theorem returns_signoffEdge {g : GuardInput} {classes : List Value}
    (h : g.closeSignoffDataClasses = .list classes) : Returns (signoffEdge g) := by
  unfold signoffEdge
  rw [h]
  refine returns_ite (fun _ => ?_) fun _ => ⟨_, rfl⟩
  cases assetDataClassification g.context with
  | none => exact ⟨_, rfl⟩
  | some dataClass => exact returns_ite (fun _ => ⟨_, rfl⟩) fun _ => ⟨_, rfl⟩

/-- On lists of rules and classes only the class derivation can raise. -/
theorem returns_evaluateGuard {g : GuardInput} {rules classes : List Value}
    (hrules : g.guardrails = .list rules) (hclasses : g.closeSignoffDataClasses = .list classes)
    (h : Returns (deriveAuthzClass g.context)) : Returns (evaluateGuard g) := by
  unfold evaluateGuard
  refine h.bind fun derived _ => ?_
  obtain ⟨cls, comps⟩ := derived
  dsimp only
  split
  · exact ⟨_, rfl⟩
  · rw [hrules]
    refine Returns.bind ⟨rules, rfl⟩ fun rules' _ => ?_
    split
    · exact returns_ite (fun _ => ⟨_, rfl⟩) fun _ => ⟨_, rfl⟩
    · refine (returns_signoffEdge hclasses).bind fun signoff _ => ?_
      cases signoff with
      | some o => exact ⟨_, rfl⟩
      | none => exact ⟨_, rfl⟩

/-- A baseline whose window says "9am". -/
def spelledOut : AuthorizationContext where
  activity := login
  facts := [baseline "B1" (some ⟨"9am", "5pm"⟩)]

end SocTalk.TriagePolicy
