import SocTalk.Provisioning.Store

/-! The sessions that read and write a tenant's lifecycle, one transaction each, statement by
statement. An exception rolls the transaction back. -/
namespace SocTalk.Provisioning
open ReadCommitted

/-- The tenant as a session holds it: a later SELECT of the row, FOR UPDATE or not, does not
refresh it. `read` and `cluster` say when it was loaded and are no part of the source. -/
structure Loaded where
  tenant : Tenant
  read : ℕ
  cluster : Cluster

def Loaded.state (l : Loaded) : TenantState := l.tenant.state

inductive Label where
  | select
  | execute
  /-- The state is set from the loaded one. -/
  | transition (l : Loaded) (eventType : EventType) (toState : TenantState)
  /-- The runtime is written back with changes. -/
  | heartbeat (l : Loaded)
  /-- Under its lock on the row, the sweep decides about a missing namespace. -/
  | recheck (l : Loaded)
  | commit
  /-- The commit of a fresh missing-marker. -/
  | stamped (now : ℕ)
  | cluster (change : ClusterChange)

inductive Release where
  | wazuh | tenant

/-- What a session asks of helm and Kubernetes. -/
inductive Call where
  | step (s : Step)
  | helmUninstall (release : Release)
  | deleteNamespace

abbrev Program := Prog DB Write Call Label Resource

def select (next : View DB Resource → Program) : Program := .stmt .select (fun _ => []) next

def execute (writes : List Write) (next : Program) : Program :=
  .stmt .execute (fun _ => writes) fun _ => next

def commit : Program := .commit .commit

/-- `_load_tenant`. -/
def load (next : Loaded → Program) : Program :=
  select fun v => next ⟨v.db.tenant, (history v.db).length, v.db.cluster⟩

def Loaded.entry (l : Loaded) (eventType : EventType) (toState : TenantState) : Entry :=
  ⟨⟨eventType, some l.state, some toState⟩, l.read, l.cluster⟩

def Loaded.withState (l : Loaded) (state : TenantState) : Loaded :=
  { l with tenant := { l.tenant with state := state } }

def Loaded.transitionWrites (l : Loaded) (eventType : EventType) (toState : TenantState) :
    List Write :=
  (if l.state = toState then [] else [.setState toState]) ++ [.event (l.entry eventType toState)]

/-- `_transition`. -/
def transition (l : Loaded) (toState : TenantState) (eventType : EventType)
    (next : Loaded → Program) : Program :=
  .stmt (.transition l eventType toState) (fun _ => l.transitionWrites eventType toState)
    fun _ => next (l.withState toState)

/-- `_emit_event`. -/
def emitEvent (l : Loaded) (eventType : EventType) (next : Program) : Program :=
  execute [.event (l.entry eventType l.state)] next

/-! ## Provisioning jobs -/

inductive Profile where
  | poc | persistent | provided
  deriving DecidableEq

/-- How a step ends, and whether it emits its event: an idempotent step that finds its work done
does not. -/
inductive Outcome where
  | passed (emits : Bool)
  | raised

section Jobs

variable (profile : Profile) (outcome : Step → Outcome)

/-- The steps in order; the first one that raises degrades the tenant. -/
def runSteps (l : Loaded) (failed : EventType) (done : Program) : List Step → Program
  | [] => done
  | s :: steps =>
    .call (.step s) <|
    match outcome s with
    | .passed true => emitEvent l (.step s) (runSteps l failed done steps)
    | .passed false => runSteps l failed done steps
    | .raised => transition l .degraded failed fun _ => commit

def provisionSteps : List Step :=
  [.preflight, .mintSecrets, .ensureNamespace, .applySecrets] ++
  (if profile = .provided then [.writeExternalSiemSecret] else []) ++
  [.helmApplyTenant] ++
  (if profile = .provided then [.wazuhSkipped] else [.helmApplyWazuh]) ++
  [.waitWorkloads] ++
  (if profile = .provided then [] else [.writeIntegrationConfig])

/-- `_step_finalize_active`. -/
def finalizeActive (l : Loaded) : Program :=
  if l.state = .active then commit else transition l .active .active fun _ => commit

def provisionFrom (l : Loaded) : Program :=
  select fun v =>
  if v.db.agentManaged then emitEvent l .agentManagedProvisioningSkipped commit
  else runSteps outcome l .provisioningFailed (finalizeActive l) (provisionSteps profile)

def provision : Program :=
  load fun l =>
  match l.state with
  | .active => .rollback
  | .pending =>
    transition l .provisioning .provisioningStarted fun l => provisionFrom profile outcome l
  | .degraded =>
    transition l .provisioning .retryRequested fun l => provisionFrom profile outcome l
  | .provisioning => provisionFrom profile outcome l
  | _ => .rollback

def reconcileSteps (llmTiers : Bool) : List Step :=
  (if profile = .provided then [.writeExternalSiemSecret] else []) ++
  (if llmTiers then [.syncLlmKey] else []) ++ [.helmApplyTenant, .waitWorkloads]

def reconcile (llmTiers : Bool) : Program :=
  load fun l =>
  if l.state ≠ .active then .rollback
  else
    select fun v =>
    if v.db.agentManaged then emitEvent l .agentManagedReconcileSkipped commit
    else
      emitEvent l .reconcileStarted <|
      runSteps outcome l .reconcileFailed (emitEvent l .reconcileSucceeded commit)
        (reconcileSteps profile llmTiers)

end Jobs

def hasLeft (s : TenantState) : Bool :=
  s = .decommissioning || s = .archived || s = .purged

def helmUninstalled (l : Loaded) : Write :=
  .event ⟨⟨.helmUninstalled, none, none⟩, l.read, l.cluster⟩

/-- `helm_uninstall` of the releases, then the namespace, then the record. The worker never
forces. -/
def tearDown (fails : Release → Bool) (l : Loaded) : List Release → Program
  | release :: releases =>
    .call (.helmUninstall release) <|
    if fails release then .rollback
    else execute [helmUninstalled l] (tearDown fails l releases)
  | [] =>
    .call .deleteNamespace <|
    .stmt .execute (fun v => [.setDeletedAt v.db.cluster.clock]) fun _ =>
    transition l .archived .archived fun _ => commit

def decommission (fails : Release → Bool) : Program :=
  load fun l =>
  if hasLeft l.state then tearDown fails l [.wazuh, .tenant]
  else
    transition l .decommissioning .decommissionStarted fun l =>
    tearDown fails l [.wazuh, .tenant]

/-- `_run_job` abandons a job whose tenant is archived or purged. -/
def runJob (job : Program) : Program :=
  select fun v =>
  if v.db.tenant.state = .archived ∨ v.db.tenant.state = .purged then .rollback else job

/-! ## Drift repair -/

/-- `_finalize_archive`, whose caller holds the row lock. -/
def finalizeArchive (l : Loaded) : Program :=
  let archive := fun l : Loaded =>
    (if l.tenant.deletedAt = none then
      .stmt .execute (fun v => [.setDeletedAt v.db.cluster.clock]) fun _ =>
      transition l .archived .archived fun _ => commit
    else transition l .archived .archived fun _ => commit : Program)
  if l.state = .decommissioning then archive l
  else transition l .decommissioning .decommissionDetected archive

def Loaded.marker (l : Loaded) : Option ℕ := l.tenant.runtime.namespaceMissingSince

def sweeps (s : TenantState) : Bool := s = .active || s = .degraded || s = .decommissioning

/-- `_reconcile_missing_namespace`. -/
def reconcileMissingNamespace (grace : ℕ) (l : Loaded) : Program :=
  execute [.lockTenant] <|
  .stmt (.recheck l) (fun _ => []) fun v =>
  if !sweeps l.state || hasActiveProvisioningJob v.db then .rollback
  else
    let now := v.db.cluster.clock
    let decided := { l with cluster := v.db.cluster }
    if l.state = .decommissioning then finalizeArchive decided
    else
      match l.marker with
      | some since => if since + grace ≤ now then finalizeArchive decided else commit
      | none =>
        execute [.setRuntime { l.tenant.runtime with namespaceMissingSince := some now }] <|
        if l.state = .active then
          transition decided .degraded .degradedNamespaceMissing fun _ => .commit (.stamped now)
        else .commit (.stamped now)

/-- `_reconcile_present_namespace`. -/
def reconcilePresentNamespace (allReady : Bool) (l : Loaded) : Program :=
  execute [.lockTenant] <|
  select fun v =>
  if !(l.state = .active || l.state = .degraded) || hasActiveProvisioningJob v.db then .rollback
  else
    let clearing := fun next : Program =>
      if l.marker = none then next
      else execute [.setRuntime { l.tenant.runtime with namespaceMissingSince := none }] next
    if l.state = .active ∧ !allReady then
      if l.tenant.runtime.lastHeartbeat = none then
        clearing <| transition l .degraded .degradedPodsNotReady fun _ => commit
      else clearing commit
    else if l.state = .degraded ∧ allReady then
      clearing <| transition l .active .recovered fun _ => commit
    else if l.marker = none then .rollback
    else clearing commit

def syncState (grace : ℕ) : Program :=
  load fun l =>
  if !sweeps l.state then .rollback
  else
    select fun v =>
    if hasActiveProvisioningJob v.db then .rollback
    else
      select fun v =>
      if !v.db.cluster.reachable then .rollback
      else if v.db.cluster.absentSince.isSome then reconcileMissingNamespace grace l
      else
        select fun v =>
        match v.db.cluster.pods with
        | none => .rollback
        | some pods => reconcilePresentNamespace (!pods.isEmpty && pods.all id) l

/-! ## Endpoints -/

/-- `_assert_transition` stands before the transitions of `suspend` and `resume` only. -/
def asserted (toState : TenantState) (eventType : EventType) : Program :=
  load fun l =>
  if toState ∈ VALID_TRANSITIONS l.state then transition l toState eventType fun _ => commit
  else .rollback

def suspend : Program := asserted .suspended .suspended

def resume : Program := asserted .active .resumed

/-- A new job, unless the unique index on active jobs refuses it. -/
def enqueue (kind : JobKind) (next : Program) : Program :=
  .stmt .execute (fun v => if activeJob v.db kind then [] else [.insertJob kind])
    fun v => if activeJob v.db kind then .rollback else next

/-- `decommission_tenant`. -/
def decommissionTenant : Program :=
  load fun l =>
  select fun v =>
  let queue : Program := if activeJob v.db .decommission then commit else enqueue .decommission commit
  if hasLeft l.state then queue
  else transition l .decommissioning .decommissionStarted fun _ => queue

def failedProvision (db : DB) : Option ℕ :=
  (List.range db.jobs.length).findRev? fun i =>
    (db.jobs[i]?).any fun j => j.kind = .provision && j.status = .failed

/-- `retry_provisioning`. -/
def retryProvisioning : Program :=
  load fun l =>
  if l.state ≠ .degraded then .rollback
  else
    select fun v =>
    let done : Program := emitEvent l .retryRequested commit
    if activeJob v.db .provision then done
    else
      match failedProvision v.db with
      | some i =>
        .stmt .execute (fun v => if activeJob v.db .provision then []
            else [.updateJob i ⟨.provision, .pending, 0, 5⟩])
          fun v => if activeJob v.db .provision then .rollback else done
      | none => enqueue .provision done

/-- `reconcile_tenant`. -/
def reconcileTenant : Program :=
  load fun l =>
  if l.state ≠ .active then .rollback
  else
    select fun v =>
    if v.db.agentManaged then .rollback
    else
      let done : Program := emitEvent l .reconcileRequested commit
      if activeJob v.db .reconcile then done else enqueue .reconcile done

/-- What an L2 job's completion says of the tenant. -/
inductive Completion where
  | provisioningFailed | provisioningSucceeded | upgradeSucceeded

def Completion.targetState : Completion → TenantState
  | .provisioningFailed => .degraded
  | .provisioningSucceeded => .active
  | .upgradeSucceeded => .active

def Completion.eventType : Completion → EventType
  | .provisioningFailed => .provisioningFailedL2
  | .provisioningSucceeded => .provisioningSucceededL2
  | .upgradeSucceeded => .upgradeSucceededL2

/-- Terminal and operator-set states. -/
def operatorSet (s : TenantState) : Bool :=
  s = .suspended || s = .decommissioning || s = .archived || s = .purged

/-- `_project_installation_state_to_tenant`. -/
def projectInstallationStateToTenant (c : Completion) : Program :=
  load fun l =>
  if operatorSet l.state then commit
  else if l.state = c.targetState then commit
  else transition l c.targetState c.eventType fun _ => commit

/-- The adapter's heartbeat: the whole runtime is read, changed and written back. -/
def heartbeat (version health : String) : Program :=
  load fun l =>
  .stmt (.heartbeat l)
    (fun v => [.setRuntime { l.tenant.runtime with
      version := version, health := health, lastHeartbeat := some v.db.cluster.clock }])
    fun _ => commit

/-! ## The job queue -/

/-- A change of one job's row; `_claim` skips rows that are locked. -/
def updateJob (i : ℕ) (applies : ProvisioningJob → Bool)
    (change : ProvisioningJob → ProvisioningJob) : Program :=
  .stmt .execute
    (fun v =>
      match v.db.jobs[i]? with
      | some j => if applies j && !v.locked (.job i) then [.updateJob i (change j)] else []
      | none => [])
    fun _ => commit

def claim (i : ℕ) : Program :=
  updateJob i (fun j => j.status = .pending)
    fun j => { j with status := .inFlight, attempts := j.attempts + 1 }

def recordSuccess (i : ℕ) : Program :=
  updateJob i (fun _ => true) fun j => { j with status := .succeeded }

def recordFailure (i : ℕ) (terminal : Bool) : Program :=
  updateJob i (fun _ => true) fun j =>
    { j with status := if terminal || j.maxAttempts ≤ j.attempts then .failed else .pending }

def reclaimStale (i : ℕ) : Program :=
  updateJob i (fun j => j.status = .inFlight) fun j => { j with status := .pending }

/-! ## The sessions -/

inductive Req where
  | enqueue (kind : JobKind)
  | claim (job : ℕ)
  | recordSuccess (job : ℕ)
  | recordFailure (job : ℕ) (terminal : Bool)
  | reclaimStale (job : ℕ)
  | provision (profile : Profile) (outcome : Step → Outcome)
  | reconcile (profile : Profile) (llmTiers : Bool) (outcome : Step → Outcome)
  | decommission (fails : Release → Bool)
  | syncState
  | suspend
  | resume
  | decommissionTenant
  | retryProvisioning
  | reconcileTenant
  | issueAgent
  | project (c : Completion)
  | heartbeat (version health : String)
  | cluster (change : ClusterChange)

def serve (grace : ℕ) (_session : ℕ) : Req → Program
  | .enqueue kind => Provisioning.enqueue kind commit
  | .claim i => Provisioning.claim i
  | .recordSuccess i => Provisioning.recordSuccess i
  | .recordFailure i terminal => Provisioning.recordFailure i terminal
  | .reclaimStale i => Provisioning.reclaimStale i
  | .provision profile outcome => runJob (Provisioning.provision profile outcome)
  | .reconcile profile llmTiers outcome => runJob (Provisioning.reconcile profile outcome llmTiers)
  | .decommission fails => runJob (Provisioning.decommission fails)
  | .syncState => Provisioning.syncState grace
  | .suspend => Provisioning.suspend
  | .resume => Provisioning.resume
  | .decommissionTenant => Provisioning.decommissionTenant
  | .retryProvisioning => Provisioning.retryProvisioning
  | .reconcileTenant => Provisioning.reconcileTenant
  | .issueAgent => execute [.install] commit
  | .project c => projectInstallationStateToTenant c
  | .heartbeat version health => Provisioning.heartbeat version health
  | .cluster change => .stmt .execute (fun _ => [.cluster change]) fun _ => .commit (.cluster change)

/-! ## Schedules -/

/-- A session that runs `n` statements, the commit included, before any other does. -/
def alone (session : ℕ) (req : Req) (n : ℕ) : List (Event Req) :=
  .begin req :: List.replicate n (.advance session)

def passes : Step → Outcome := fun _ => .passed true

/-- A cluster without the tenant's namespace. -/
def emptyCluster : Cluster := ⟨0, some 0, some [], true, by simp⟩

/-- A first provision, whose namespace appears on the way. -/
def provisioned : List (Event Req) :=
  alone 0 (.enqueue .provision) 2 ++ alone 1 (.claim 0) 2 ++ alone 2 (.cluster .appear) 2 ++
  alone 3 (.provision .poc passes) 22 ++ alone 4 (.recordSuccess 0) 2

end SocTalk.Provisioning
