import Mathlib.Data.List.MinMax
import SocTalk.Lib.Transition
import SocTalk.Llm.Config

/-! The configuration of an active, controller-managed tenant: the requests that change it, and the
provisioning job that renders it. Each request is one transaction, statement by statement; the row
locks that its writes take are left out, which only adds interleavings. -/
namespace SocTalk.Provisioning.Configuration
open Py Llm

deriving instance DecidableEq for IntegrationConfig

/-! ## Authored triage policies -/

inductive PolicyStatus where
  | draft
  | shadow
  | active
  | retired
  deriving DecidableEq

/-- A row of `authored_triage_policy_revisions`. -/
structure PolicyRevision (D : Type) where
  policy : String
  revision : ℕ
  status : PolicyStatus
  definition : D

section Policies

variable {D : Type} (validateAuthored : D → Bool)

def latestRevision (log : List (PolicyRevision D)) (policy : String) : Option (PolicyRevision D) :=
  (log.filter (·.policy = policy)).argmax (·.revision)

def getAuthored (log : List (PolicyRevision D)) (policy : String) : Option (PolicyRevision D) :=
  (latestRevision log policy).filter (·.status ≠ .retired)

/-- The revision that `upsert_authored` appends. -/
def upsertAuthored (log : List (PolicyRevision D)) (policy : String) (definition : D)
    (status : PolicyStatus) : Option (PolicyRevision D) :=
  if (status = .draft || status = .shadow) && validateAuthored definition then
    some ⟨policy, ((latestRevision log policy).map (·.revision)).getD 0 + 1, status, definition⟩
  else none

/-- The revision that `set_authored_status` appends; only an activation validates again. -/
def setAuthoredStatus (log : List (PolicyRevision D)) (policy : String) (active : Bool) :
    Option (PolicyRevision D) :=
  (getAuthored log policy).bind fun latest =>
    if active && !validateAuthored latest.definition then none
    else
      some ⟨policy, latest.revision + 1, if active then .active else .shadow, latest.definition⟩

/-- The revision that `retire_authored` appends. -/
def retireAuthored (log : List (PolicyRevision D)) (policy : String) : Option (PolicyRevision D) :=
  (getAuthored log policy).map fun latest =>
    ⟨policy, latest.revision + 1, .retired, latest.definition⟩

/-- The definitions that `render_active_authored_values` puts into the chart's values. -/
def activeDefinitions (log : List (PolicyRevision D)) (policy : String) : Option D :=
  ((latestRevision log policy).filter (·.status = .active)).map (·.definition)

end Policies

/-! ## The columns -/

/-- The columns that are rendered; the key is delivered by a Secret. -/
def chartColumns (cfg : IntegrationConfig) : IntegrationConfig := { cfg with llmApiKeyPlain := none }

/-- `chart_affecting_changed`: against the row with its provider healed. -/
def chartAffectingChanged (prior next : IntegrationConfig) : Bool :=
  chartColumns next ≠ chartColumns { prior with llmProvider := prior.llmProvider.normalize }

/-- A flush writes the columns that the request changed. -/
def column {α : Type} [DecidableEq α] (prior next current : α) : α :=
  if next = prior then current else next

def flushColumns (prior next current : IntegrationConfig) : IntegrationConfig :=
  { llmProvider := column prior.llmProvider next.llmProvider current.llmProvider
    llmBaseUrl := column prior.llmBaseUrl next.llmBaseUrl current.llmBaseUrl
    llmModel := column prior.llmModel next.llmModel current.llmModel
    llmFastModel := column prior.llmFastModel next.llmFastModel current.llmFastModel
    llmReasoningModel :=
      column prior.llmReasoningModel next.llmReasoningModel current.llmReasoningModel
    llmEngine := column prior.llmEngine next.llmEngine current.llmEngine
    llmTiers := column prior.llmTiers next.llmTiers current.llmTiers
    llmTemperature := column prior.llmTemperature next.llmTemperature current.llmTemperature
    llmMaxTokens := column prior.llmMaxTokens next.llmMaxTokens current.llmMaxTokens
    llmApiKeyPlain := column prior.llmApiKeyPlain next.llmApiKeyPlain current.llmApiKeyPlain }

/-! ## The state -/

/-- What the chart's values are computed from. -/
structure Settings (D : Type) where
  llm : IntegrationConfig
  policies : String → Option D

/-- The tenant's pending or claimed `tenant.reconcile` job. -/
inductive Job (D : Type) where
  | pending
  | claimed
  /-- `_load_integration` has read the row. -/
  | loaded (row : IntegrationConfig)
  /-- The values are computed and helm is running. -/
  | upgrading (values : Settings D)
  | rendered

inductive Write (D : Type) where
  | columns (prior next : IntegrationConfig)
  | revisions (rows : List (PolicyRevision D))

/-- A request between two of its statements. -/
inductive Transaction (D : Type) where
  | creating (policy : String) (definition : D) (status : PolicyStatus)
  | editing (prior : PolicyRevision D) (definition : D) (status : PolicyStatus)
  | retiring (policy : String) (prior : Option (PolicyRevision D))
  /-- The rows are flushed; `reconciles` is whether a job is wanted. -/
  | flushed (write : Write D) (reconciles : Bool)
  /-- The jobs have been looked at; `inserts` is whether one is added. -/
  | queued (write : Write D) (inserts : Bool)
  | closed

structure State (D : Type) where
  row : IntegrationConfig
  log : List (PolicyRevision D)
  /-- `uq_provisioning_jobs_active` keeps one. -/
  job : Option (Job D)
  /-- The last job that ended succeeded. -/
  succeeded : Bool
  /-- What the last helm upgrade was given. -/
  rendered : Settings D
  transactions : List (Transaction D)
  /-- The helm processes of cancelled runs. -/
  orphans : List (Settings D)

variable {D : Type}

/-- The configuration that is committed now. -/
def State.committed (s : State D) : Settings D :=
  ⟨chartColumns s.row, activeDefinitions s.log⟩

/-! ## Requests -/

inductive Request (D : Type) where
  | updateTenantLlm (u : LlmConfigUpdate)
  | createPolicy (policy : String) (definition : D) (status : PolicyStatus)
  | updatePolicy (policy : String) (definition : D) (status : PolicyStatus)
  | retirePolicy (policy : String)
  | setStatus (policy : String) (active : Bool)

/-- What the requests depend on beside the tables. -/
structure Rules (D : Type) where
  tables : Url.Tables
  gate : PriceGate
  validateAuthored : D → Bool

variable (R : Rules D)

/-- The transaction after its first read; a refused request is closed. -/
def openRequest (s : State D) : Request D → Transaction D
  | .updateTenantLlm u =>
    match updateTenantLlm R.tables R.gate s.row u with
    | .ok next => .flushed (.columns s.row next) (chartAffectingChanged s.row next)
    | .error _ => .closed
  | .createPolicy policy definition status =>
    if (getAuthored s.log policy).isSome then .closed else .creating policy definition status
  | .updatePolicy policy definition status =>
    match getAuthored s.log policy with
    | some prior => .editing prior definition status
    | none => .closed
  | .retirePolicy policy => .retiring policy (getAuthored s.log policy)
  | .setStatus policy active =>
    match setAuthoredStatus R.validateAuthored s.log policy active with
    | some row => .flushed (.revisions [row]) true
    | none => .closed

/-- `update_authored_triage_policy_route` after its first read: an edited policy that was active
is activated again. -/
def flushEdit (log : List (PolicyRevision D)) (prior : PolicyRevision D) (definition : D)
    (status : PolicyStatus) : Transaction D :=
  match upsertAuthored R.validateAuthored log prior.policy definition status with
  | none => .closed
  | some row =>
    if prior.status = .active then
      match setAuthoredStatus R.validateAuthored (log ++ [row]) prior.policy true with
      | some again => .flushed (.revisions [row, again]) true
      | none => .closed
    else .flushed (.revisions [row]) false

/-- The next statement of a transaction. -/
def Transaction.advance (s : State D) : Transaction D → Transaction D
  | .creating policy definition status =>
    match upsertAuthored R.validateAuthored s.log policy definition status with
    | some row => .flushed (.revisions [row]) false
    | none => .closed
  | .editing prior definition status => flushEdit R s.log prior definition status
  | .retiring policy prior =>
    match retireAuthored s.log policy with
    | some row => .flushed (.revisions [row]) (prior.any (·.status = .active))
    | none => .closed
  | .flushed write reconciles => .queued write (reconciles && s.job.isNone)
  | t => t

/-- The unique indexes on revisions and on active jobs accept the rows. -/
def accepts (s : State D) (write : Write D) (inserts : Bool) : Bool :=
  !(inserts && s.job.isSome) &&
    match write with
    | .columns _ _ => true
    | .revisions rows =>
      rows.all fun row => !s.log.any fun r => r.policy = row.policy && r.revision = row.revision

def State.write (s : State D) : Write D → State D
  | .columns prior next => { s with row := flushColumns prior next s.row }
  | .revisions rows => { s with log := s.log ++ rows }

def State.close (s : State D) (i : ℕ) : State D :=
  { s with transactions := s.transactions.set i .closed }

def State.commit (s : State D) (i : ℕ) : State D :=
  match s.transactions[i]? with
  | some (.queued write inserts) =>
    if accepts s write inserts then
      { (s.write write).close i with job := if inserts then some .pending else s.job }
    else s.close i
  | _ => s.close i

/-! ## The worker -/

/-- The end of a helm process that its job no longer waits for. -/
def State.endOrphan (s : State D) (k : ℕ) : State D :=
  match s.orphans[k]? with
  | some values => { s with rendered := values, orphans := s.orphans.eraseIdx k }
  | none => s

/-- A run that exceeds its time is cancelled and queued again, as long as it has attempts left; its
helm process is not stopped. -/
def State.timeout (s : State D) (retry : Bool) : State D :=
  let ended : State D :=
    if retry then { s with job := some .pending } else { s with job := none, succeeded := false }
  match s.job with
  | none => s
  | some .pending => s
  | some (.upgrading values) => { ended with orphans := s.orphans ++ [values] }
  | _ => ended

inductive Op (D : Type) where
  | begin (request : Request D)
  | advance (i : ℕ)
  | commit (i : ℕ)
  /-- A platform roll, or an operator's reconcile request. -/
  | roll
  | claim
  | load
  | compute
  | helmApplied
  | recordSuccess
  | timeout (retry : Bool)
  | endOrphan (k : ℕ)

/-- One step; where it cannot be taken, nothing happens. -/
def step (s : State D) : Op D → State D
  | .begin request => { s with transactions := s.transactions ++ [openRequest R s request] }
  | .advance i => { s with transactions := s.transactions.modify i (Transaction.advance R s) }
  | .commit i => s.commit i
  | .roll => if s.job.isNone then { s with job := some .pending } else s
  | .claim =>
    match s.job with
    | some .pending => { s with job := some .claimed }
    | _ => s
  | .load =>
    match s.job with
    | some .claimed => { s with job := some (.loaded s.row) }
    | _ => s
  | .compute =>
    match s.job with
    | some (.loaded row) =>
      { s with job := some (.upgrading ⟨chartColumns row, activeDefinitions s.log⟩) }
    | _ => s
  | .helmApplied =>
    match s.job with
    | some (.upgrading values) => { s with job := some .rendered, rendered := values }
    | _ => s
  | .recordSuccess =>
    match s.job with
    | some .rendered => { s with job := none, succeeded := true }
    | _ => s
  | .timeout retry => s.timeout retry
  | .endOrphan k => s.endOrphan k

end SocTalk.Provisioning.Configuration
