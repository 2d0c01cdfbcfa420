import SocTalk.Response.Authoring
import SocTalk.Response.Envelope
import SocTalk.Runs.Endpoints

/-! Dispatch: which playbooks govern a completed run, and the outbox rows it enqueues. -/
namespace SocTalk.Response
open Py TriagePolicy Runs
open Provisioning.Configuration (PolicyRevision PolicyStatus latestRevision)

/-! ## Selection -/

/-- `PolicyStatus` of a row against the status that a playbook governs at. -/
def hasStatus (row : PolicyRevision Dict) (status : Status) : Bool :=
  match row.status, status with
  | .active, .active => true
  | .shadow, .shadow => true
  | _, _ => false

/-- The playbook of a row: pinned to its tenant, and still valid. -/
def authoredPlaybook (tenantId : String) (row : PolicyRevision Dict) : Option ResponsePlaybook :=
  if (Dict.get row.definition "tenant").toText ≠ tenantId then none
  else (validateAuthored row.definition).toOption

/-- `by_id[pb.id] = pb`. -/
def setById : List ResponsePlaybook → ResponsePlaybook → List ResponsePlaybook
  | [], pb => [pb]
  | q :: rest, pb => if q.id = pb.id then pb :: rest else q :: setById rest pb

/-- Matching playbooks of a status: the registry's, where the tenant has authored no playbook of
the same id, and the tenant's own. -/
def matched (reg : List ResponsePlaybook) (tenantId : String) (log : AuthoredLog) (t : Surface)
    (status : Status) : List ResponsePlaybook :=
  let dbRows := listAuthored log
  let authoredIds := dbRows.map (·.policy)
  let files := (matchResponsePlaybooks reg t status).filter fun pb => pb.id ∉ authoredIds
  let authored := (dbRows.filter fun row => hasStatus row status).filterMap fun row =>
    (authoredPlaybook tenantId row).filter fun pb => playbookMatches pb t
  sortByPriority (authored.foldl setById files)

def actionHolds (ctx : Dict) (action : ResponseAction) : Bool :=
  match action.condition with
  | none => true
  | some condition => evaluateCondition condition ctx

/-- Actions whose condition holds, under their place in the playbook's list. -/
def selectedActions (pb : ResponsePlaybook) (disposition : String) (ctx : Dict) :
    List (ℕ × ResponseAction) :=
  ((pb.actionsFor disposition).zipIdx.map fun (action, i) => (i, action)).filter fun selected =>
    actionHolds ctx selected.2

/-! ## The outbox -/

structure Payload where
  envelope : Dict
  playbookId : String
  playbookVersion : ℤ
  capability : String
  params : Value
  delivery : String

/-- A pending row of the kind `response_action`. -/
structure OutboxRow where
  tenantId : String
  investigationId : String
  idempotencyKey : String
  payload : Payload
  externalSystem : Option String

abbrev Outbox := List OutboxRow

def Outbox.keys (outbox : Outbox) : List String := outbox.map (·.idempotencyKey)

def idempotencyKey (runId : String) (playbookId : String) (version : ℤ) (index : ℕ) : String :=
  "response:" ++ runId ++ ":" ++ playbookId ++ "@" ++ toString version ++ ":" ++ toString index

def outboxRow (envelope : Envelope) (pb : ResponsePlaybook) (index : ℕ)
    (action : ResponseAction) : OutboxRow :=
  let delivery := idempotencyKey envelope.runId pb.id pb.version index
  { tenantId := envelope.tenantId
    investigationId := envelope.investigationId
    idempotencyKey := delivery
    payload :=
      { envelope := envelope.dump, playbookId := pb.id, playbookVersion := pb.version
        capability := action.capability, params := action.params, delivery := delivery }
    externalSystem := if action.capability = "notify_webhook" then some "webhook" else none }

/-- `ON CONFLICT (idempotency_key) DO NOTHING`. -/
def insertRow (outbox : Outbox) (row : OutboxRow) : Outbox :=
  if row.idempotencyKey ∈ outbox.keys then outbox else outbox ++ [row]

/-- The rows of the selected actions of some playbooks. -/
def selectedRows (envelope : Envelope) (playbooks : List ResponsePlaybook) : List OutboxRow :=
  playbooks.flatMap fun pb =>
    (selectedActions pb envelope.verdict.effectiveDisposition (conditionContext envelope)).map
      fun (i, action) => outboxRow envelope pb i action

/-- What a dispatch reads beside the run. -/
structure World where
  killEnv : String := ""
  policy : Dict := []
  registry : List ResponsePlaybook
  registry_nodup : (registry.map (·.id)).Nodup
  slug : Option String := none
  log : AuthoredLog := []

/-- The install's switch, or a real `true` in the tenant's policy. -/
def responseDispatchKilled (W : World) : Bool :=
  ["1", "true", "yes"].contains (lower W.killEnv) ||
    match Dict.get W.policy "response_dispatch_kill" with
    | .bool true => true
    | _ => false

def tenantIdentifiers (W : World) (tenantId : String) : List String :=
  tenantId :: (W.slug.filter (· ≠ "")).toList

def surfaceOf (W : World) (e : Envelope) : Surface where
  ruleGroups := e.facets.ruleGroups
  ruleIds := e.facets.ruleIds
  tenantIdentifiers := tenantIdentifiers W e.tenantId
  mitreTechniques := e.facets.mitreTechniques
  mitreTactics := e.facets.mitreTactics

def dispatchForCompletedRun (W : World) (tenantId investigationId runId : String)
    (verdict : Verdict) (evidence : List EvidenceRow) (outbox : Outbox) : M Outbox := do
  let envelope ← buildEnvelope tenantId investigationId runId verdict evidence
  let active := matched W.registry tenantId W.log (surfaceOf W envelope) .active
  if responseDispatchKilled W then return outbox
  return (selectedRows envelope active).foldl insertRow outbox

/-! ## The completion -/

/-- A completed call on a run, with what the transaction sees: the ruling of the server-side floor
on a close, and whether the investigation is active when the disposition is applied. -/
structure Completion where
  tenantId : String
  investigationId : String
  runId : String
  status : FinalStatus
  disposition : Option Disposition
  floorVeto : Option String := none
  investigationActive : Bool
  summary : Option String := none
  confidence : Option FloatVal := none
  enrichments : Option Dict := none
  evidence : List EvidenceRow := []

def dispositionText : Disposition → String
  | .closeFp => "close_fp"
  | .escalate => "escalate"
  | .leaveOpen => "leave_open"

/-- The ruling of the floor, on a close. -/
def Completion.veto (c : Completion) : Option String :=
  if c.disposition = some .closeFp then c.floorVeto else none

def Completion.effective (c : Completion) : Option Disposition :=
  if c.veto.isSome then some .escalate else c.disposition

/-- A close changes an active investigation; an escalation is taken to change its. -/
def Completion.caseChanged (c : Completion) : Bool :=
  match c.effective with
  | some .closeFp => c.investigationActive
  | some .escalate => true
  | _ => false

def Completion.verdict (c : Completion) (effective : Disposition) : Verdict where
  workerDisposition := c.disposition.map dispositionText
  effectiveDisposition := dispositionText effective
  serverFloorVeto := c.veto
  summary := c.summary
  confidence := c.confidence
  enrichments := c.enrichments

/-- The dispatch of `complete_run`, under a savepoint: one that raises enqueues nothing. -/
def completeRun (W : World) (c : Completion) (outbox : Outbox) : Outbox :=
  match c.effective with
  | none => outbox
  | some effective =>
    if c.status = .completed ∧ c.caseChanged = true ∧ effective ≠ .leaveOpen then
      match dispatchForCompletedRun W c.tenantId c.investigationId c.runId (c.verdict effective)
          c.evidence outbox with
      | .ok outbox => outbox
      | .error _ => outbox
    else outbox

end SocTalk.Response
