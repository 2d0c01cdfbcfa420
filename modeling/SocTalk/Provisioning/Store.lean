import Mathlib.Data.Nat.Notation
import SocTalk.Lib.ReadCommitted

/-! The rows of one tenant that provisioning reads and writes, beside the cluster it probes.
Times are in microseconds. -/
namespace SocTalk.Provisioning
open ReadCommitted

inductive TenantState where
  | pending | provisioning | active | degraded | suspended | decommissioning | archived | purged
  deriving DecidableEq

def VALID_TRANSITIONS : TenantState → List TenantState
  | .pending => [.provisioning]
  | .provisioning => [.active, .degraded]
  | .active => [.suspended, .degraded, .decommissioning]
  | .degraded => [.provisioning, .active, .decommissioning]
  | .suspended => [.active, .decommissioning]
  | .decommissioning => [.archived]
  | .archived => [.purged]
  | .purged => []

/-- `tenants.runtime`. The marker is stored as text and parsed back by `_parse_iso`. -/
structure Runtime where
  version : String
  health : String
  lastHeartbeat : Option ℕ
  namespaceMissingSince : Option ℕ

structure Tenant where
  state : TenantState
  runtime : Runtime
  deletedAt : Option ℕ

inductive JobKind where
  | provision | reconcile | decommission
  deriving DecidableEq

inductive JobStatus where
  | pending | inFlight | succeeded | failed
  deriving DecidableEq

/-- A row of `provisioning_jobs`, known by its position. -/
structure ProvisioningJob where
  kind : JobKind
  status : JobStatus
  attempts : ℕ
  maxAttempts : ℕ

def ProvisioningJob.isActive (j : ProvisioningJob) : Bool :=
  j.status = .pending || j.status = .inFlight

/-- The named steps of a provision or a reconcile. -/
inductive Step where
  | preflight | mintSecrets | ensureNamespace | applySecrets | writeExternalSiemSecret
  | syncLlmKey | helmApplyTenant | wazuhSkipped | helmApplyWazuh | waitWorkloads
  | writeIntegrationConfig
  deriving DecidableEq

inductive EventType where
  | provisioningStarted | retryRequested | active | provisioningFailed
  | agentManagedProvisioningSkipped | agentManagedReconcileSkipped
  | reconcileRequested | reconcileStarted | reconcileSucceeded | reconcileFailed
  | step (s : Step)
  | suspended | resumed | decommissionStarted | helmUninstalled | archived
  | degradedNamespaceMissing | degradedPodsNotReady | recovered | decommissionDetected
  | provisioningFailedL2 | provisioningSucceededL2 | upgradeSucceededL2
  deriving DecidableEq

/-- A row of `tenant_lifecycle_events`. -/
structure LifecycleEvent where
  eventType : EventType
  fromState : Option TenantState
  toState : Option TenantState
  deriving DecidableEq

def LifecycleEvent.changes (e : LifecycleEvent) : Bool := e.fromState ≠ e.toState

/-! ## The cluster -/

/-- The tenant's namespace, as probes see it now. -/
structure Cluster where
  clock : ℕ
  absentSince : Option ℕ
  /-- Readiness of each pod, `none` where they cannot be read. -/
  pods : Option (List Bool)
  reachable : Bool
  past : ∀ since ∈ absentSince, since ≤ clock

inductive ClusterChange where
  | tick (microseconds : ℕ)
  | appear
  | vanish
  | pods (pods : Option (List Bool))
  | reachable (reachable : Bool)

def Cluster.change (c : Cluster) : ClusterChange → Cluster
  | .tick d =>
    { c with clock := c.clock + d, past := fun since h => Nat.le_add_right_of_le (c.past since h) }
  | .appear => { c with absentSince := none, past := fun _ h => by cases h }
  | .vanish =>
    { c with
      absentSince := some (c.absentSince.getD c.clock)
      past := by
        intro since h
        cases h
        cases hc : c.absentSince with
        | none => exact Nat.le_refl _
        | some t => exact c.past t hc }
  | .pods pods => { c with pods := pods }
  | .reachable reachable => { c with reachable := reachable }

/-! ## The tables -/

/-- A committed lifecycle event, with how many changes of state had been committed when its
writer read the tenant, and the cluster as it was when its writer decided on it. -/
structure Entry where
  event : LifecycleEvent
  read : ℕ
  cluster : Cluster

structure DB where
  tenant : Tenant
  jobs : List ProvisioningJob
  /-- A `TenantInstallation` row exists: the L2 agent applies the release. -/
  agentManaged : Bool
  log : List Entry
  cluster : Cluster

/-- The changes of state that the log reports. -/
def history (db : DB) : List Entry := db.log.filter fun e => e.event.changes

def activeJob (db : DB) (kind : JobKind) : Bool := db.jobs.any fun j => j.kind = kind && j.isActive

def hasActiveProvisioningJob (db : DB) : Bool := db.jobs.any ProvisioningJob.isActive

/-- A tenant as the create endpoint commits it. -/
def created (cluster : Cluster) : DB :=
  ⟨⟨.pending, ⟨"", "", none, none⟩, none⟩, [], false, [], cluster⟩

inductive Resource where
  | tenant
  | job (i : ℕ)
  | activeJob (kind : JobKind)
  | installation
  | cluster
  deriving DecidableEq

/-- An ORM flush writes the columns that changed, wherever the row has the primary key. -/
inductive Write where
  | lockTenant
  | setState (state : TenantState)
  | setRuntime (runtime : Runtime)
  | setDeletedAt (at_ : ℕ)
  | event (e : Entry)
  | insertJob (kind : JobKind)
  | updateJob (i : ℕ) (job : ProvisioningJob)
  | install
  | cluster (change : ClusterChange)

def Write.apply : Write → DB → DB
  | .lockTenant, db => db
  | .setState state, db => { db with tenant := { db.tenant with state := state } }
  | .setRuntime runtime, db => { db with tenant := { db.tenant with runtime := runtime } }
  | .setDeletedAt at_, db => { db with tenant := { db.tenant with deletedAt := some at_ } }
  | .event e, db => { db with log := db.log ++ [e] }
  | .insertJob kind, db => { db with jobs := db.jobs ++ [⟨kind, .pending, 0, 5⟩] }
  | .updateJob i job, db => { db with jobs := db.jobs.set i job }
  | .install, db => { db with agentManaged := true }
  | .cluster change, db => { db with cluster := db.cluster.change change }

/-- An event that reports a change is flushed with it, under the row's lock. -/
def Write.locks : Write → List Resource
  | .lockTenant => [.tenant]
  | .setState _ => [.tenant]
  | .setRuntime _ => [.tenant]
  | .setDeletedAt _ => [.tenant]
  | .event e => if e.event.changes then [.tenant] else []
  | .insertJob kind => [.activeJob kind]
  | .updateJob i job => [.job i, .activeJob job.kind]
  | .install => [.installation]
  | .cluster _ => [.cluster]

/-- Behind the tenant's lock its row and the changes of its state; nothing that is proved here
rests on the other locks. -/
def rowOf : Resource → DB → Option (Tenant × List Entry)
  | .tenant, db => some (db.tenant, history db)
  | _, _ => none

theorem history_event (e : Entry) (db : DB) :
    history ((Write.event e).apply db) = history db ++ if e.event.changes then [e] else [] := by
  show (db.log ++ [e]).filter _ = _
  rw [List.filter_append]
  cases h : e.event.changes <;> simp [h, history]

theorem Write.frame (w : Write) (r : Resource) (db : DB) (h : r ∉ w.locks) :
    rowOf r (w.apply db) = rowOf r db := by
  cases r with
  | tenant =>
    cases w with
    | setState state => exact absurd List.mem_cons_self h
    | setRuntime runtime => exact absurd List.mem_cons_self h
    | setDeletedAt at_ => exact absurd List.mem_cons_self h
    | event e =>
      have hquiet : e.event.changes = false := by
        by_contra hc
        exact h (by simp [Write.locks, hc])
      have hhist : history ((Write.event e).apply db) = history db := by
        rw [history_event, hquiet]
        exact List.append_nil _
      exact congrArg (fun es => some (db.tenant, es)) hhist
    | _ => rfl
  | _ => rfl

def store : Store DB Write Resource (Option (Tenant × List Entry)) where
  apply := Write.apply
  locks := Write.locks
  row := rowOf
  frame := Write.frame

/-- What a write does to the tenant's row and history depends on these only. -/
theorem row_tenant_congr (w : Write) (db db' : DB)
    (h : store.row .tenant db = store.row .tenant db') :
    store.row .tenant (store.apply w db) = store.row .tenant (store.apply w db') := by
  obtain ⟨ht, hh⟩ := Prod.mk.inj (Option.some.inj h)
  cases w with
  | event e =>
    have hhist : history ((Write.event e).apply db) = history ((Write.event e).apply db') := by
      rw [history_event, history_event, hh]
    exact congrArg some (Prod.ext ht hhist)
  | setState state =>
    show some (({ db.tenant with state := state } : Tenant), history db) = _
    rw [ht, hh]
    rfl
  | setRuntime runtime =>
    show some (({ db.tenant with runtime := runtime } : Tenant), history db) = _
    rw [ht, hh]
    rfl
  | setDeletedAt at_ =>
    show some (({ db.tenant with deletedAt := some at_ } : Tenant), history db) = _
    rw [ht, hh]
    rfl
  | _ => exact h

end SocTalk.Provisioning
