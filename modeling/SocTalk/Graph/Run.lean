import SocTalk.Graph.Budget
import SocTalk.Graph.VerdictGuard
import SocTalk.TriagePolicy.Gate

/-! The investigation graph: its nodes, the edges between them, and its runs. -/
namespace SocTalk.Graph
open Py Authorization TriagePolicy

/-! ## The state -/

def maxIterations : ℕ := 10

structure SupervisorDecision where
  nextAction : SupervisorAction
  tpConfidence : FloatVal

inductive VerdictDecision where
  | escalate
  | close
  | needsMoreInfo
  deriving DecidableEq

def VerdictDecision.value : VerdictDecision → String
  | .escalate => "escalate"
  | .close => "close"
  | .needsMoreInfo => "needs_more_info"

inductive HumanDecision where
  | approve
  | reject
  | moreInfo
  deriving DecidableEq

/-- The keys of the state that the nodes and the edges read. -/
structure GraphState where
  investigation : Value
  correlation : Value := .none
  budget : BudgetState := {}
  triagePolicy : Option TriagePolicy := none
  triagePolicyShadow : List TriagePolicy := []
  operationalVetoes : Option (List OperationalVeto) := none
  iterationCount : ℕ := 0
  supervisorDecision : Option SupervisorDecision := none
  supervisorError : Option String := none
  budgetTerminated : Bool := false
  stepsRun : List String := []
  operationalClose : Bool := false
  verdict : Dict := []
  verdictError : Option String := none
  verdictInterrupted : Bool := false
  verdictOverriddenByGuard : Bool := false
  verdictRetryCount : ℕ := 0
  humanDecision : Option HumanDecision := none
  audit : List Dict := []

def errorDump : Option String → Value
  | some category => .dict [("category", .str category)]
  | none => .none

/-- The state as the mapping that the guard, the verdict's edge and the worker read. -/
def GraphState.toDict (s : GraphState) : Dict :=
  [("investigation", s.investigation), ("correlation", s.correlation),
    ("triage_policy", match s.triagePolicy with
      | some p => .dict p.dump
      | none => .none),
    ("supervisor_decision", match s.supervisorDecision with
      | some d => .dict [("next_action", .str d.nextAction.value),
          ("tp_confidence", .float d.tpConfidence)]
      | none => .none),
    ("supervisor_error", errorDump s.supervisorError),
    ("budget_terminated", .bool s.budgetTerminated), ("verdict", .dict s.verdict),
    ("verdict_error", errorDump s.verdictError),
    ("verdict_interrupted", .bool s.verdictInterrupted),
    ("verdict_retry_count", .int s.verdictRetryCount)]

/-- What a process runs the graph with: its policy files, the schema of authorization contexts, and
the environment of the budgets. -/
structure Setup where
  yaml : Yaml
  tenants : List String := []
  files : List String := []
  validate : Value → Option AuthorizationContext
  dumpContext : AuthorizationContext → AuthorizationComponents → Value
  budgetEnv : BudgetEnv := {}

/-- Built-ins and accepted files. -/
def Setup.registry (S : Setup) : List TriagePolicy := TriagePolicy.registry S.yaml S.tenants S.files

/-- What one node gets from outside: what a worker makes of the investigation, the spend after the
node's calls, the answers of the models and of the reviewer, and whether the node raises. -/
structure Answer where
  investigation : Value := .dict []
  budget : BudgetState := {}
  decision : Except String SupervisorDecision := .error ""
  verdict : Except String (VerdictDecision × Dict) := .error ""
  /-- None while the review waits. -/
  review : Option HumanDecision := none
  raises : Bool := false
  now : String := ""

variable (S : Setup)

/-! ## Nodes -/

def investigationOf (s : GraphState) : Value := s.investigation.orElse (.dict [])

/-- Whether a policy closes its class by itself, with a capability that is known. -/
def knownDisposition (p : TriagePolicy) : Bool :=
  p.deterministicDisposition.any fun d => knownDispositions.contains d

/-- The vetoes that the router will read, for a policy that closes its class. -/
def stashVetoes (s : GraphState) (p : TriagePolicy) : M GraphState := do
  if knownDisposition p then
    let vetoes ← operationalCloseVetoes (investigationOf s) p.appliesTo.ruleGroups
    return { s with operationalVetoes := some vetoes }
  else return s

def resolveTriagePolicyNode (s : GraphState) : M GraphState := do
  let triagePolicy ← matchTriagePolicy S.registry (investigationOf s)
  let shadow ← matchShadowTriagePolicies S.registry (investigationOf s)
  let s := { s with
    triagePolicy := triagePolicy.or s.triagePolicy
    triagePolicyShadow := if shadow.isEmpty then s.triagePolicyShadow else shadow }
  match triagePolicy with
  | none => return s
  | some p => stashVetoes s p

/-- Close an operational-class alert without a model. -/
def operationalCloseNode (now : String) (s : GraphState) : GraphState :=
  let id : Value := match s.triagePolicy with
    | some p => .str p.id
    | none => .none
  { s with
    supervisorDecision := some ⟨.close, .fin 0⟩
    audit := s.audit ++ [[("at", .str now), ("triage_policy", id),
      ("effect", .str "deterministic_disposition"), ("disposition", .str closeOperational)]]
    operationalClose := true }

def supervisorNode (a : Answer) (s : GraphState) : GraphState :=
  let s := { s with budget := ensure S.budgetEnv s.budget }
  if overBudget S.budgetEnv s.budget then
    { s with supervisorDecision := some ⟨.close, .fin 0⟩, budgetTerminated := true }
  else
    let iteration := s.iterationCount + 1
    let s := { s with iterationCount := iteration }
    if maxIterations ≤ iteration then
      { s with supervisorDecision := some ⟨.verdict, .fin (1 / 2)⟩ }
    else
      match a.decision with
      | .ok decision => { s with supervisorDecision := some decision, budget := a.budget }
      | .error category => { s with supervisorError := some category, budget := a.budget }

/-- A worker's tools rewrite the investigation. -/
def workerNode (a : Answer) (s : GraphState) : GraphState :=
  { s with investigation := a.investigation, budget := a.budget }

/-- The components of the context that the investigation carries, written back on it. -/
def dumpComponents (s : GraphState) : M GraphState := do
  match ← parseAuthorizationContext S.validate (investigationOf s) with
  | none => return s
  | some ctx =>
    let components ← evaluateAuthorization ctx.activity ctx.facts ctx.tenant
    match investigationOf s with
    | .dict d =>
      let d := Dict.set d "authorization_context" (S.dumpContext ctx components)
      return { s with investigation := .dict d }
    | _ => throw .typeError

/-- The step is recorded before any work. -/
def gatherAuthorizationContextNode (s : GraphState) : M GraphState :=
  dumpComponents S (if s.stepsRun.contains gatherAuthorizationContext then s
    else { s with stepsRun := s.stepsRun ++ [gatherAuthorizationContext] })

def verdictNode (a : Answer) (s : GraphState) : GraphState :=
  match a.verdict with
  | .ok (decision, record) =>
    { s with
      verdict := ("decision", .enum decision.value) :: record
      budget := a.budget
      verdictRetryCount :=
        if decision = .needsMoreInfo then s.verdictRetryCount + 1 else s.verdictRetryCount }
  | .error category =>
    { s with
      verdictError := some category, budget := a.budget
      verdictRetryCount := s.verdictRetryCount + 1 }

/-- What a fired guard writes. -/
def enforceRuling (draft : String) (r : GuardResult) (s : GraphState) : GraphState :=
  let s := if r.interrupted then { s with verdictInterrupted := true } else s
  if r.overridden then
    { s with
      verdict := match overriddenVerdict (.dict s.verdict) draft r with
        | .dict d => d
        | _ => s.verdict
      verdictOverriddenByGuard := true
      -- An enforced request for more information counts as a retry.
      verdictRetryCount :=
        if r.finalDecision = "needs_more_info" then s.verdictRetryCount + 1
        else s.verdictRetryCount }
  else s

/-- A fresh ruling, with the would-fire records of the shadow policies. -/
def applyRuling (now draft : String) (result : GuardResult) (audits : List Dict) (s : GraphState) :
    GraphState :=
  let s := { s with
    verdictInterrupted := false
    verdictOverriddenByGuard := false
    audit := s.audit ++ audits.map fun entry => ("at", .str now) :: entry }
  if result.overrides.isEmpty then s
  else
    enforceRuling draft result
      { s with audit := s.audit ++ [auditRecord now s.toDict draft result] }

def guardNode (now : String) (s : GraphState) : M GraphState := do
  match ← guardInput S.validate s.toDict with
  | none => return s
  | some g =>
    let result ← evaluateGuard g
    let audits ← shadowGuardrailAudits (s.triagePolicyShadow.map fun p => .dict p.dump)
      result.conditionCtx
    return applyRuling now g.verdictDecision result audits s

def humanReviewNode (d : HumanDecision) (s : GraphState) : GraphState :=
  { s with humanDecision := some d }

def closeInvestigationNode (s : GraphState) : M GraphState :=
  match s.investigation with
  | .dict d => return { s with investigation := .dict (Dict.set d "status" (.str "closed")) }
  | _ => throw .typeError

/-! ## Edges -/

inductive Node where
  | resolveTriagePolicy
  | operationalClose
  | supervisor
  | wazuhWorker
  | cortexWorker
  | mispWorker
  | gatherAuthorizationContext
  | verdict
  | verdictGuard
  | humanReview
  | thehiveWorker
  | closeInvestigation
  deriving DecidableEq

/-- Every condition that is not met goes to full triage. -/
def routeFromResolveTriagePolicy (s : GraphState) : Node :=
  match s.triagePolicy with
  | none => .supervisor
  | some p =>
    if !knownDisposition p then .supervisor
    else if s.operationalVetoes = some [] then .operationalClose
    else .supervisor

/-- An action that is not legal becomes a legal one: a verdict where that is legal. -/
def remap (legal : Option (List SupervisorAction)) (action : SupervisorAction) :
    SupervisorAction :=
  match legal with
  | none => action
  | some legal =>
    if action ∈ legal then action else if .verdict ∈ legal then .verdict else legal.headD action

def proposedAction (s : GraphState) : SupervisorAction :=
  (s.supervisorDecision.map (·.nextAction)).getD .enrich

/-- The verdict that the iteration limit forces. -/
def forcedVerdict (s : GraphState) : Prop :=
  proposedAction s = .verdict ∧ maxIterations ≤ s.iterationCount

instance (s : GraphState) : Decidable (forcedVerdict s) := inferInstanceAs (Decidable (_ ∧ _))

/-- The action that the gate lets through. -/
def gatedAction (s : GraphState) : SupervisorAction :=
  if s.budgetTerminated = true ∨ forcedVerdict s then proposedAction s
  else remap (legalActionsFor s.triagePolicy s.stepsRun) (proposedAction s)

def routeFromSupervisor (s : GraphState) : Node :=
  if s.supervisorError.isSome then .closeInvestigation
  else
    let missing := !s.budgetTerminated &&
      !(missingRequiredSteps s.triagePolicy s.stepsRun).isEmpty
    match gatedAction s with
    | .investigate => .wazuhWorker
    | .enrich => .cortexWorker
    | .contextualize => .mispWorker
    | .verdict => if missing then .gatherAuthorizationContext else .verdict
    | .close => if missing then .gatherAuthorizationContext else .closeInvestigation

def Route.node : Route → Node
  | .humanReview => .humanReview
  | .closeInvestigation => .closeInvestigation
  | .supervisor => .supervisor

def routeFromHumanReview (s : GraphState) : Node :=
  match s.humanDecision with
  | some .approve => .thehiveWorker
  | some .moreInfo => .supervisor
  | _ => .closeInvestigation

/-! ## Runs -/

/-- Where a run is: before a node, at the end, or stopped by an exception. -/
inductive Place where
  | before (n : Node)
  | ended
  | aborted
  deriving DecidableEq

/-- A run, with what is counted on it: the supervisor's iterations, the reviews that asked for more
information, and the nodes that have run. -/
structure Config where
  place : Place
  state : GraphState
  supervisorRuns : ℕ := 0
  moreInfos : ℕ := 0
  moves : ℕ := 0

def runNode (a : Answer) (s : GraphState) : Node → M (GraphState × Place)
  | .resolveTriagePolicy => do
    let s ← resolveTriagePolicyNode S s
    return (s, .before (routeFromResolveTriagePolicy s))
  | .operationalClose => return (operationalCloseNode a.now s, .before .closeInvestigation)
  | .supervisor =>
    let s := supervisorNode S a s
    return (s, .before (routeFromSupervisor s))
  | .gatherAuthorizationContext => do
    return (← gatherAuthorizationContextNode S s, .before .supervisor)
  | .verdict => return (verdictNode a s, .before .verdictGuard)
  | .verdictGuard => do
    let s ← guardNode S a.now s
    return (s, .before (← routeFromVerdict s.toDict).node)
  | .humanReview =>
    match a.review with
    -- The interrupt leaves the state as it was; the node runs again when it is resumed.
    | none => return (s, .before .humanReview)
    | some d =>
      let s := humanReviewNode d s
      return (s, .before (routeFromHumanReview s))
  | .thehiveWorker => return (workerNode a s, .before .closeInvestigation)
  | .closeInvestigation => return (← closeInvestigationNode s, .ended)
  | .wazuhWorker => return (workerNode a s, .before .supervisor)
  | .cortexWorker => return (workerNode a s, .before .supervisor)
  | .mispWorker => return (workerNode a s, .before .supervisor)

/-- The review has no answer yet. -/
def waits (a : Answer) (n : Node) : Bool := n = .humanReview && a.review.isNone

def step (c : Config) (a : Answer) : Config :=
  match c.place with
  | .before n =>
    if a.raises then { c with place := .aborted, moves := c.moves + 1 }
    else if waits a n then c
    else
      let counted : Config := { c with
        supervisorRuns := if n = .supervisor then c.supervisorRuns + 1 else c.supervisorRuns
        moreInfos :=
          if n = .humanReview ∧ a.review = some .moreInfo then c.moreInfos + 1 else c.moreInfos
        moves := c.moves + 1 }
      match runNode S a c.state n with
      | .ok (s, place) => { counted with place := place, state := s }
      | .error _ => { counted with place := .aborted }
  | _ => c

/-- What the worker starts a claimed run with. -/
def start (investigation correlation : Value) (budget : BudgetState) : Config where
  place := .before .resolveTriagePolicy
  state := { investigation := investigation, correlation := correlation, budget := budget }

def run (c : Config) (answers : List Answer) : Config := answers.foldl (step S) c

/-- The runs of a claimed case. -/
def Reachable (c : Config) : Prop :=
  ∃ investigation correlation budget answers,
    c = run S (start investigation correlation budget) answers

end SocTalk.Graph
