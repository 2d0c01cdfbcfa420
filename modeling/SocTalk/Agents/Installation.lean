import Mathlib.Data.Int.Notation
import Mathlib.Data.List.Basic

/-! One tenant's installation as the control plane drives it: its state, the queue of jobs
for the tenant's agent, and the requests of the agent and of the operator. -/
namespace SocTalk.Agents

inductive InstallationState where
  | pending
  | agentConnected
  | provisioning
  | upgrading
  | active
  | degraded
  deriving DecidableEq

inductive JobKind where
  | preflight
  | installHelmRelease
  | upgradeHelmRelease
  | waitForReady
  deriving DecidableEq

def JobKind.value : JobKind → String
  | .preflight => "preflight"
  | .installHelmRelease => "install_helm_release"
  | .upgradeHelmRelease => "upgrade_helm_release"
  | .waitForReady => "wait_for_ready"

inductive JobStatus where
  | pending
  | inFlight
  | succeeded
  | failed
  deriving DecidableEq

/-- Pending or in flight. -/
def JobStatus.isOpen : JobStatus → Bool
  | .pending => true
  | .inFlight => true
  | .succeeded => false
  | .failed => false

structure AgentJob where
  kind : JobKind
  idempotencyKey : String
  status : JobStatus := .pending
  claimedAt : Option ℤ := none
  deriving DecidableEq

inductive DesiredAction where
  | none
  | install
  | upgrade
  deriving DecidableEq

/-- The installation row with its jobs in the order they were created; a job's id is its
place in that order. -/
structure TenantInstallation where
  id : String
  desiredChartRef : String
  desiredChartVersion : String
  desiredAction : DesiredAction := .install
  reportedChartVersion : Option String := .none
  state : InstallationState := .pending
  jobs : List AgentJob := []
  deriving DecidableEq

/-! ## Idempotency keys -/

def preflightKey (s : TenantInstallation) : String := "preflight:" ++ s.id

def installKey (s : TenantInstallation) (ref version : String) : String :=
  "install:" ++ s.id ++ ":" ++ ref ++ ":" ++ version

def upgradeKey (s : TenantInstallation) (ref version : String) : String :=
  "upgrade:" ++ s.id ++ ":" ++ ref ++ ":" ++ version

def waitKey (s : TenantInstallation) (kind : JobKind) (version : String) : String :=
  "wait:" ++ kind.value ++ ":" ++ s.id ++ ":" ++ version

/-- `_enqueue_agent_job`: a key that is taken, by a job in any status, adds nothing. -/
def enqueueAgentJob (s : TenantInstallation) (kind : JobKind) (key : String) :
    TenantInstallation :=
  if s.jobs.any fun j => j.idempotencyKey == key then s
  else { s with jobs := s.jobs ++ [{ kind := kind, idempotencyKey := key }] }

/-! ## The agent's requests -/

/-- `register`. The connection is committed before the preflight job is enqueued; a process
that dies in between leaves the job out. -/
def register (s : TenantInstallation) (diesBeforeEnqueue : Bool) : TenantInstallation :=
  if s.state = .pending then
    let s := { s with state := .agentConnected }
    if diesBeforeEnqueue then s else enqueueAgentJob s .preflight (preflightKey s)
  else s

/-- Microseconds. -/
def staleClaimThreshold : ℤ := 15 * 60 * 1000000

/-- A stale claim goes back to pending. -/
def reclaimOne (now : ℤ) (j : AgentJob) : AgentJob :=
  match j.status, j.claimedAt with
  | .inFlight, some claimed =>
    if claimed < now - staleClaimThreshold then { j with status := .pending, claimedAt := none }
    else j
  | _, _ => j

def reclaimStale (s : TenantInstallation) (now : ℤ) : TenantInstallation :=
  { s with jobs := s.jobs.map (reclaimOne now) }

/-- The oldest pending job is handed out. -/
def claimFirst (now : ℤ) : List AgentJob → List AgentJob
  | [] => []
  | j :: js =>
    if j.status = .pending then { j with status := .inFlight, claimedAt := some now } :: js
    else j :: claimFirst now js

/-- `claim_job`, behind the reclaim it starts with. -/
def claimJob (s : TenantInstallation) (now : ℤ) : TenantInstallation :=
  { s with jobs := claimFirst now (reclaimStale s now).jobs }

/-- The state in which an apply job's success is taken. -/
def JobKind.applyState : JobKind → Option InstallationState
  | .installHelmRelease => some .provisioning
  | .upgradeHelmRelease => some .upgrading
  | _ => none

/-- What a success advances, on the row with the job marked. `built` says whether the spec of
the next job could be built; if not, the request fails as a whole. -/
def advance (before marked : TenantInstallation) (kind : JobKind) (built : Bool) :
    TenantInstallation :=
  if kind = .preflight ∧ before.state = .agentConnected then
    if built then
      enqueueAgentJob { marked with state := .provisioning } .installHelmRelease
        (installKey before before.desiredChartRef before.desiredChartVersion)
    else before
  else if kind.applyState = some before.state then
    if built then
      enqueueAgentJob marked .waitForReady (waitKey before kind before.desiredChartVersion)
    else before
  else if kind = .waitForReady ∧ (before.state = .provisioning ∨ before.state = .upgrading) then
    { marked with
      state := .active
      reportedChartVersion := some before.desiredChartVersion
      desiredAction := .none }
  else marked

/-- `complete_job`. A terminal job is left as recorded. -/
def completeJob (s : TenantInstallation) (id : ℕ) (success built : Bool) : TenantInstallation :=
  match s.jobs[id]? with
  | none => s
  | some job =>
    if !job.status.isOpen then s
    else if success then
      advance s { s with jobs := s.jobs.set id { job with status := .succeeded } } job.kind built
    else
      { s with state := .degraded, jobs := s.jobs.set id { job with status := .failed } }

/-! ## The operator's requests -/

/-- `retry_install`: in-flight and failed jobs go back to pending, and a degraded
installation resumes in the state it picks. -/
def retryInstall (s : TenantInstallation) : TenantInstallation :=
  let retried := s.jobs.filter fun j => j.status = .failed
  let jobs := s.jobs.map fun j =>
    if j.status = .inFlight ∨ j.status = .failed then
      { j with status := .pending, claimedAt := none }
    else j
  let upgradeFailed := retried.any fun j => j.kind == .upgradeHelmRelease
  if s.state = .degraded ∧ retried ≠ [] then
    let resume := if upgradeFailed ∨ s.desiredAction = .upgrade then .upgrading else .provisioning
    { s with state := resume, jobs := jobs }
  else { s with jobs := jobs }

/-- `issue_agent` on an existing installation, with the chart the environment names now. -/
def issueAgent (s : TenantInstallation) (ref version : String) (built : Bool) :
    TenantInstallation :=
  if s.desiredChartRef = ref ∧ s.desiredChartVersion = version then s
  else
    let moved := { s with
      desiredChartRef := ref, desiredChartVersion := version, desiredAction := .upgrade }
    match s.state with
    | .provisioning => s
    | .upgrading => s
    | .pending => moved
    | .agentConnected => moved
    | .active =>
      if built then
        enqueueAgentJob { moved with state := .upgrading } .upgradeHelmRelease
          (upgradeKey s ref version)
      else s
    | .degraded =>
      if built then
        enqueueAgentJob { moved with state := .upgrading } .upgradeHelmRelease
          (upgradeKey s ref version)
      else s

/-- One request, from its first to its last commit. Progress events write no row of these. -/
inductive Op where
  | register (diesBeforeEnqueue : Bool)
  | reclaimStale (now : ℤ)
  | claim (now : ℤ)
  | postEvent
  | complete (job : ℕ) (success built : Bool)
  | retryInstall
  | issueAgent (ref version : String) (built : Bool)

def step (s : TenantInstallation) : Op → TenantInstallation
  | .register dies => register s dies
  | .reclaimStale now => Agents.reclaimStale s now
  | .claim now => claimJob s now
  | .postEvent => s
  | .complete job success built => completeJob s job success built
  | .retryInstall => Agents.retryInstall s
  | .issueAgent ref version built => Agents.issueAgent s ref version built

end SocTalk.Agents
