import Mathlib.Data.List.MinMax
import Mathlib.Logic.Function.Basic
import SocTalk.Lib.Transition
import SocTalk.Provisioning.Store

/-! The control-plane processes and the tenant charts they render: each runs one worker, all
share the queue of provisioning jobs. A process is known by its start time; times are in
microseconds. -/
namespace SocTalk.Provisioning.Platform

/-! ## The tables -/

/-- `render_record`: the platform a render used and when its process started. -/
structure RenderRecord where
  fingerprint : ℕ
  startedAt : ℕ
  deriving DecidableEq

/-- A `helm_applied` event of the tenant chart; a render that could not be fingerprinted has no
record. -/
structure HelmApplied where
  timestamp : ℕ
  record : Option RenderRecord
  deriving DecidableEq

/-- An active row of `provisioning_jobs`; it is in flight when it has been claimed. -/
structure QueuedJob where
  id : ℕ
  attempts : ℕ
  maxAttempts : ℕ
  claimedAt : Option ℕ

structure Tenant where
  state : TenantState
  deleted : Bool
  agentManaged : Bool
  /-- `uq_provisioning_jobs_active` keeps one active job of a kind. -/
  queue : JobKind → Option QueuedJob
  events : List HelmApplied
  /-- The start times of the processes whose helm upgrades succeeded, in order. -/
  renders : List ℕ

def Tenant.setQueue (t : Tenant) (kind : JobKind) (job : Option QueuedJob) : Tenant :=
  { t with queue := Function.update t.queue kind job }

def Tenant.busy (t : Tenant) : Bool :=
  (t.queue .provision).isSome || (t.queue .reconcile).isSome || (t.queue .decommission).isSome

/-! ## The processes -/

inductive Phase where
  | claimed
  | loaded
  | upgrading
  /-- The event is pending in the job's transaction. -/
  | rendered (event : HelmApplied)

/-- The job a worker is running. -/
structure Running where
  tenant : ℕ
  kind : JobKind
  id : ℕ
  phase : Phase

structure Process where
  startedAt : ℕ
  fingerprint : ℕ
  /-- The tenants its sweep has selected and not yet queued. -/
  picked : List ℕ
  job : Option Running
  /-- The tenants whose charts its helm subprocesses are upgrading: cancelling the job that
  waits for one does not end it. -/
  upgrades : List ℕ

structure State where
  clock : ℕ
  /-- Every process there has been, with its platform. -/
  started : List (ℕ × ℕ)
  processes : List Process
  tenants : ℕ
  minted : ℕ
  tenant : ℕ → Tenant

def State.update (s : State) (t : ℕ) (f : Tenant → Tenant) : State :=
  { s with tenant := Function.update s.tenant t (f (s.tenant t)) }

@[simp] theorem update_self (s : State) (t : ℕ) (f : Tenant → Tenant) :
    (s.update t f).tenant t = f (s.tenant t) := Function.update_self ..

theorem update_of_ne (s : State) {t u : ℕ} (h : u ≠ t) (f : Tenant → Tenant) :
    (s.update t f).tenant u = s.tenant u := Function.update_of_ne h ..

def State.find (s : State) (p : ℕ) : Option Process := s.processes.find? fun P => P.startedAt = p

def State.modify (s : State) (p : ℕ) (f : Process → Process) : State :=
  { s with processes := s.processes.map fun P => if P.startedAt = p then f P else P }

/-! ## The roll -/

structure RollSettings where
  enabled : Bool
  grace : ℕ
  batchSize : ℕ
  positive : 1 ≤ batchSize

/-- `latest_tenant_renders`, of one tenant. -/
def latestRender (events : List HelmApplied) : Option HelmApplied := events.argmax (·.timestamp)

def isOutdated (latest : Option HelmApplied) (current : ℕ) : Bool :=
  (latest.bind (·.record)).map (·.fingerprint) ≠ some current

/-- The last render was recorded by a process that started later. -/
def renderedByLater (latest : Option HelmApplied) (startedAt : ℕ) : Bool :=
  (latest.bind (·.record)).any fun r => startedAt < r.startedAt

def rolls (P : Process) (t : Tenant) : Bool :=
  !t.busy && isOutdated (latestRender t.events) P.fingerprint &&
    !renderedByLater (latestRender t.events) P.startedAt

/-- Tenants are listed in the order they were created. -/
def activeTenants (s : State) : List ℕ :=
  (List.range s.tenants).filter fun t =>
    (s.tenant t).state = .active && !(s.tenant t).deleted && !(s.tenant t).agentManaged

def selectTenantsToRoll (settings : RollSettings) (s : State) (P : Process) : List ℕ :=
  if !settings.enabled then []
  else if s.clock < P.startedAt + settings.grace then []
  else ((activeTenants s).filter fun t => rolls P (s.tenant t)).take settings.batchSize

/-! ## The jobs -/

/-- A new pending job of an existing tenant, unless the unique index refuses it. -/
def enqueue (s : State) (t : ℕ) (kind : JobKind) : State :=
  if ((s.tenant t).queue kind).isSome ∨ s.tenants ≤ t then s
  else
    { s.update t fun T => T.setQueue kind (some ⟨s.minted, 0, 5, none⟩) with minted := s.minted + 1 }

/-- The row of a running job, if it is still there. -/
def onRow (run : Running) (f : QueuedJob → Option QueuedJob) (T : Tenant) : Tenant :=
  match T.queue run.kind with
  | some job => if job.id = run.id then T.setQueue run.kind (f job) else T
  | none => T

def recordSuccess (run : Running) : Tenant → Tenant := onRow run fun _ => none

def recordFailure (run : Running) (terminal : Bool) : Tenant → Tenant :=
  onRow run fun job =>
    if terminal || job.maxAttempts ≤ job.attempts then none else some { job with claimedAt := none }

/-- The worker is free again, and the tenant as the job left it. -/
def leave (s : State) (p : ℕ) (run : Running) (f : Tenant → Tenant) : State :=
  (s.update run.tenant f).modify p fun P => { P with job := none }

def enter (s : State) (p : ℕ) (run : Running) (phase : Phase) : State :=
  s.modify p fun P => { P with job := some { run with phase := phase } }

def claim (s : State) (p t : ℕ) (kind : JobKind) : State :=
  match s.find p, (s.tenant t).queue kind with
  | some P, some job =>
    if P.job.isNone && job.claimedAt.isNone then
      (s.update t fun T => T.setQueue kind
        (some { job with attempts := job.attempts + 1, claimedAt := some s.clock })).modify p
        fun P => { P with job := some ⟨t, kind, job.id, .claimed⟩ }
    else s
  | _, _ => s

/-- What a claimed job finds of its tenant, up to its steps. -/
def load (s : State) (p : ℕ) (run : Running) : State :=
  let T := s.tenant run.tenant
  if T.state = .archived ∨ T.state = .purged then leave s p run (recordFailure run true)
  else
    match run.kind with
    | .decommission => enter s p run .loaded
    | .reconcile =>
      if T.state ≠ .active then leave s p run (recordFailure run false)
      else if T.agentManaged then leave s p run (recordSuccess run)
      else enter s p run .loaded
    | .provision =>
      if T.state = .active then leave s p run (recordSuccess run)
      else if T.state = .suspended ∨ T.state = .decommissioning then
        leave s p run (recordFailure run false)
      else if T.agentManaged then leave s p run (recordSuccess run)
      else enter s p run .loaded

def Running.renders (run : Running) : Bool := run.kind ≠ .decommission

/-- `_step_helm_apply_tenant` starts its subprocess. -/
def helmUpgrade (s : State) (p : ℕ) (run : Running) : State :=
  s.modify p fun P =>
    { P with job := some { run with phase := .upgrading }, upgrades := run.tenant :: P.upgrades }

/-- The subprocess has upgraded the release; the job that waits for it records the platform,
unless that fails. -/
def upgraded (s : State) (P : Process) (t : ℕ) (recorded : Bool) : State :=
  let event : HelmApplied :=
    ⟨s.clock, if recorded then some ⟨P.fingerprint, P.startedAt⟩ else none⟩
  let job := P.job.map fun run =>
    match run.phase with
    | .upgrading => if run.tenant = t then { run with phase := .rendered event } else run
    | _ => run
  { (s.update t fun T => { T with renders := T.renders ++ [P.startedAt] }).modify P.startedAt
      fun P => { P with job := job, upgrades := P.upgrades.erase t } with clock := s.clock + 1 }

/-- The job is done, and its transaction commits. -/
def succeed (s : State) (p : ℕ) (run : Running) : State :=
  match run.kind, run.phase with
  | .reconcile, .rendered event =>
    leave s p run fun T => recordSuccess run { T with events := T.events ++ [event] }
  | .provision, .rendered event =>
    leave s p run fun T => recordSuccess run { T with events := T.events ++ [event], state := .active }
  | .decommission, .loaded =>
    leave s p run fun T => recordSuccess run { T with state := .archived, deleted := true }
  | _, _ => s

/-- A step raises: the transaction commits with the tenant degraded. A decommission rolls back. -/
def fail (s : State) (p : ℕ) (run : Running) : State :=
  match run.kind, run.phase with
  | _, .claimed => s
  | .decommission, _ => leave s p run (recordFailure run false)
  | _, .rendered event =>
    leave s p run fun T =>
      recordFailure run false { T with events := T.events ++ [event], state := .degraded }
  | _, _ => leave s p run fun T => recordFailure run false { T with state := .degraded }

def reclaim (s : State) (stale t : ℕ) (kind : JobKind) : State :=
  match (s.tenant t).queue kind with
  | some job =>
    match job.claimedAt with
    | some claimedAt =>
      if claimedAt + stale < s.clock then
        s.update t fun T => T.setQueue kind (some { job with claimedAt := none })
      else s
    | none => s
  | none => s

/-! ## Steps -/

inductive Op where
  | tick (microseconds : ℕ)
  /-- A process starts on a platform of its own. -/
  | start (fingerprint : ℕ)
  | stop (p : ℕ)
  | lifecycle (t : ℕ) (state : TenantState) (deleted : Bool)
  | issueAgent (t : ℕ)
  | enqueue (t : ℕ) (kind : JobKind)
  | decide (p : ℕ)
  | queue (p : ℕ)
  | claim (p t : ℕ) (kind : JobKind)
  | load (p : ℕ)
  | helmUpgrade (p : ℕ)
  | upgraded (p t : ℕ) (recorded : Bool)
  | upgradeFailed (p t : ℕ)
  | succeed (p : ℕ)
  | fail (p : ℕ)
  /-- The job times out, or is otherwise rolled back; its subprocess runs on. -/
  | abort (p : ℕ)
  | reclaim (t : ℕ) (kind : JobKind)

/-- A step of the job that process `p` runs. -/
def onJob (s : State) (p : ℕ) (f : Running → State) : State :=
  match (s.find p).bind (·.job) with
  | some run => f run
  | none => s

def step (settings : RollSettings) (stale : ℕ) (s : State) : Op → State
  | .tick d => { s with clock := s.clock + d }
  | .start fingerprint =>
    if fingerprint ∈ s.started.map Prod.snd then s
    else
      { s with
        clock := s.clock + 1
        started := s.started ++ [(s.clock + 1, fingerprint)]
        processes := s.processes ++ [⟨s.clock + 1, fingerprint, [], none, []⟩] }
  | .stop p => { s with processes := s.processes.filter fun P => P.startedAt ≠ p }
  | .lifecycle t state deleted => s.update t fun T => { T with state := state, deleted := deleted }
  | .issueAgent t => s.update t fun T => { T with agentManaged := true }
  | .enqueue t kind => Platform.enqueue s t kind
  | .decide p =>
    match s.find p with
    | some P =>
      if P.job.isNone then s.modify p fun Q => { Q with picked := selectTenantsToRoll settings s P }
      else s
    | none => s
  | .queue p =>
    match (s.find p).bind (·.picked.head?) with
    | some t => (Platform.enqueue s t .reconcile).modify p fun P => { P with picked := P.picked.tail }
    | none => s
  | .claim p t kind => Platform.claim s p t kind
  | .load p =>
    onJob s p fun run =>
      match run.phase with
      | .claimed => Platform.load s p run
      | _ => s
  | .helmUpgrade p =>
    onJob s p fun run =>
      match run.phase with
      | .loaded => if run.renders then Platform.helmUpgrade s p run else s
      | _ => s
  | .upgraded p t recorded =>
    match s.find p with
    | some P => if t ∈ P.upgrades then Platform.upgraded s P t recorded else s
    | none => s
  | .upgradeFailed p t =>
    match s.find p with
    | some P =>
      if t ∈ P.upgrades then
        let s := s.modify p fun P => { P with upgrades := P.upgrades.erase t }
        onJob s p fun run =>
          match run.phase with
          | .upgrading => if run.tenant = t then fail s p run else s
          | _ => s
      else s
    | none => s
  | .succeed p => onJob s p fun run => Platform.succeed s p run
  | .fail p =>
    onJob s p fun run =>
      match run.phase with
      | .upgrading => s
      | _ => Platform.fail s p run
  | .abort p => onJob s p fun run => leave s p run (recordFailure run false)
  | .reclaim t kind => Platform.reclaim s stale t kind

end SocTalk.Provisioning.Platform
