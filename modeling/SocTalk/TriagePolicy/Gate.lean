import SocTalk.Authorization.Render
import SocTalk.TriagePolicy.Registry

/-! Required steps, legal actions and the vetoes of the operational close: what the graph's routing
asks of the active policy. -/
namespace SocTalk.TriagePolicy
open Py Authorization

inductive SupervisorAction where
  | enrich
  | contextualize
  | investigate
  | verdict
  | close
  deriving DecidableEq

def SupervisorAction.value : SupervisorAction → String
  | .enrich => "ENRICH"
  | .contextualize => "CONTEXTUALIZE"
  | .investigate => "INVESTIGATE"
  | .verdict => "VERDICT"
  | .close => "CLOSE"

/-- All actions, sorted by name. -/
def SupervisorAction.all : List SupervisorAction :=
  [.close, .contextualize, .enrich, .investigate, .verdict]

theorem SupervisorAction.mem_all (a : SupervisorAction) : a ∈ SupervisorAction.all := by
  cases a <;> decide

inductive PolicyPhase where
  | triage
  | decide
  deriving DecidableEq

def PolicyPhase.value : PolicyPhase → String
  | .triage => "triage"
  | .decide => "decide"

/-- The required steps that have not run; a step the graph has no node for is skipped. -/
def missingRequiredSteps (triagePolicy : Option TriagePolicy) (stepsRun : List String) :
    List String :=
  ((triagePolicy.map (·.requiredSteps)).getD []).filter fun step =>
    !stepsRun.contains step && knownStepNodes.contains step

/-- From the policy's state, never from a model's words. -/
def triagePolicyPhase (triagePolicy : Option TriagePolicy) (stepsRun : List String) : PolicyPhase :=
  if (missingRequiredSteps triagePolicy stepsRun).isEmpty then .decide else .triage

/-- The legal actions of the phase, sorted; none where nothing constrains it. Unknown names are
dropped, and where no name is left the constraint is void. -/
def legalActionsFor (triagePolicy : Option TriagePolicy) (stepsRun : List String) :
    Option (List SupervisorAction) := do
  let actions ← ((triagePolicy.map (·.legalActions)).getD []).lookup
    (triagePolicyPhase triagePolicy stepsRun).value
  let valid := SupervisorAction.all.filter fun a => (actions.map upper).contains a.value
  if valid.isEmpty then none else some valid

theorem mem_missingRequiredSteps {p : TriagePolicy} {stepsRun : List String} {step : String} :
    step ∈ missingRequiredSteps (some p) stepsRun ↔
      step ∈ p.requiredSteps ∧ step ∉ stepsRun ∧ step ∈ knownStepNodes := by
  simp [missingRequiredSteps]

theorem missingRequiredSteps_none (stepsRun : List String) :
    missingRequiredSteps none stepsRun = [] := rfl

/-- A step that is missing is the one step there is a node for. -/
theorem eq_gather_of_mem_missing {triagePolicy : Option TriagePolicy} {stepsRun : List String}
    {step : String} (h : step ∈ missingRequiredSteps triagePolicy stepsRun) :
    step = gatherAuthorizationContext := by
  have hknown : step ∈ knownStepNodes := by
    unfold missingRequiredSteps at h
    simp_all
  simpa [knownStepNodes] using hknown

/-- Once it has run, nothing is missing. -/
theorem missingRequiredSteps_of_gathered (triagePolicy : Option TriagePolicy)
    {stepsRun : List String} (h : gatherAuthorizationContext ∈ stepsRun) :
    missingRequiredSteps triagePolicy stepsRun = [] := by
  refine List.eq_nil_iff_forall_not_mem.mpr fun step hstep => ?_
  have hgather := eq_gather_of_mem_missing hstep
  cases triagePolicy with
  | none => cases hstep
  | some p => exact (mem_missingRequiredSteps.mp hstep).2.1 (hgather ▸ h)

theorem legalActionsFor_ne_nil {triagePolicy : Option TriagePolicy} {stepsRun : List String}
    {legal : List SupervisorAction} (h : legalActionsFor triagePolicy stepsRun = some legal) :
    legal ≠ [] := by
  unfold legalActionsFor at h
  obtain ⟨actions, -, h⟩ := Option.bind_eq_some_iff.mp h
  dsimp only at h
  split at h
  · cases h
  · cases h
    simp_all

/-- A legal action is listed for the phase, up to its letters' case. -/
theorem listed_of_legal {p : TriagePolicy} {stepsRun : List String}
    {legal : List SupervisorAction} (h : legalActionsFor (some p) stepsRun = some legal)
    {a : SupervisorAction} (ha : a ∈ legal) :
    ∃ phase actions, (phase, actions) ∈ p.legalActions ∧ ∃ name ∈ actions, upper name = a.value := by
  unfold legalActionsFor at h
  obtain ⟨actions, hlookup, h⟩ := Option.bind_eq_some_iff.mp h
  dsimp only at h
  split at h
  · cases h
  · cases h
    obtain ⟨-, hlisted⟩ := List.mem_filter.mp ha
    obtain ⟨name, hname, hupper⟩ := List.mem_map.mp (List.contains_iff_mem.mp hlisted)
    obtain ⟨before, after, hsplit, -⟩ := List.lookup_eq_some_iff.mp hlookup
    have hmem : ((triagePolicyPhase (some p) stepsRun).value, actions) ∈ p.legalActions := by
      have hmap : ((some p).map (·.legalActions)).getD [] = p.legalActions := rfl
      rw [← hmap, hsplit]
      exact List.mem_append_right _ List.mem_cons_self
    exact ⟨_, actions, hmem, name, hname, hupper⟩

/-! ## The operational close -/

def operationalMaxLevel : ℤ := 11

inductive OperationalVeto where
  | unattestedClass
  | mitre
  | observables
  | severity
  | malicious
  deriving DecidableEq

/-- `int(v)`. -/
def toInt : Value → M ℤ
  | .int n => return n
  | .bool b => return if b then 1 else 0
  | .float (.fin q) => return if 0 ≤ q then ⌊q⌋ else ⌈q⌉
  | .float .nan => throw .valueError
  | .float _ => throw .overflowError
  | .str s => int s
  | .enum v => int v
  | _ => throw .typeError

/-- Any technique mapping, under the current or the former keys. -/
def hasMitre (mitre : Value) : M Bool :=
  if !mitre.truthy then return false
  else ["ids", "tactics", "techniques", "id", "tactic", "technique"].anyM fun k => do
    return (← mitre.get k).truthy

/-- The alert carries one of the class's rule groups. -/
def attestsClass (classGroups : List String) (alert : Dict) : M Bool := do
  let groups ← ((Dict.get alert "rule_groups").orElse (.list [])).iter
  return groups.any fun g => classGroups.contains (lower g.toText)

/-- What forbids the operational close of an investigation; an empty list is its consent. -/
def operationalCloseVetoes (investigation : Value) (classRuleGroups : List String) :
    M (List OperationalVeto) := do
  let alerts ← alertsOf investigation
  let classGroups := classRuleGroups.map lower
  let attested ← if classGroups.isEmpty then pure true
    else if alerts.isEmpty then pure false
    else alerts.allM (attestsClass classGroups)
  let mitre ← alerts.anyM fun a => hasMitre (Dict.get a "mitre")
  let observables := (← investigation.get "observables").truthy
  let severe ← alerts.anyM fun a => do
    return operationalMaxLevel < (← toInt ((Dict.get a "level").orElse (.int 0)))
  let malicious ← hasMaliciousSignal investigation
  return (if attested then [] else [.unattestedClass]) ++ (if mitre then [.mitre] else []) ++
    (if observables then [.observables] else []) ++ (if severe then [.severity] else []) ++
    (if malicious then [.malicious] else [])

end SocTalk.TriagePolicy
