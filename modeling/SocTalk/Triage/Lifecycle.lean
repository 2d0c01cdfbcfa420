import SocTalk.Reviews.Store
import SocTalk.Triage.Event

/-! What writes an investigation: ingest, the completion of its runs, the decisions of its
reviews, cancellation, merging and detaching. One operation is one transaction. -/
namespace SocTalk.Triage
open Py TriagePolicy Worker Reviews

/-- A row of `pending_reviews`. -/
structure Review where
  id : ℕ
  tenant : Tenant
  investigationId : ℕ
  status : ReviewStatus := .pending
  deriving DecidableEq

/-- The tables of triage with the review queue. -/
structure Cases where
  db : DB
  reviews : List Review := []

def cancelledStatus : InvestigationStatus := .other "cancelled"

/-- Where a merge leaves the investigation merged away. -/
def closedStatus : InvestigationStatus := .other "closed"

/-- `TERMINAL_STATUSES`. -/
def terminalStatuses : List InvestigationStatus :=
  [closedStatus, .autoClosedFp, .other "closed_fp", .other "closed_tp", cancelledStatus]

/-- `build_reopen_fields_for_investigation`. -/
def buildReopenFields (ctx : Context) (db : DB) (tenant : Tenant) (investigation : ℕ) :
    M (ReopenSignature × ℤ) := do
  let rows := (db.alerts.filter fun a =>
    a.tenant = tenant ∧ a.investigationId = some investigation).insertionSort
      fun a a' => a.firstEventAt ≤ a'.firstEventAt
  let iocs := (rows.flatMap (·.initialIocs)).filter fun i => i.type ≠ "" ∧ i.value ≠ ""
  let window ← timedeltaDays
    (Policy.get (effectivePolicy ctx db tenant) "reopen_window_days" (.int 30))
  return ({ iocFingerprints := iocs.map (iocFingerprint ctx)
            assetIds := (rows.flatMap (·.assetIds)).eraseDups
            ruleIds := ((rows.flatMap (·.ruleId.toList)).filter (· ≠ "")).eraseDups },
    ctx.now + window)

def Investigation.closedAsFp (i : Investigation) (now : ℤ) (fields : ReopenSignature × ℤ) :
    Investigation :=
  { i with
    status := .autoClosedFp
    closedAt := some now
    reopenSignature := some fields.1
    reopenWindowUntil := some fields.2 }

namespace DB

/-- The live runs of an investigation end. -/
def failRuns (db : DB) (investigation : ℕ) : DB :=
  { db with runs := db.runs.map fun r =>
      if r.investigationId = investigation then { r with live := false } else r }

/-- `start_run` under the unique index on live runs. -/
def startOnlyRun (db : DB) (investigation : ℕ) : Option DB :=
  if (db.activeRunForCase investigation).isSome then none
  else some (db.startRun investigation (.fin 0))

end DB

/-! ## The completion of a run -/

/-- `record_human_review_requested`: the severity of an active case is raised, and a review is
queued unless one is pending. -/
def Cases.recordHumanReviewRequested (s : Cases) (tenant : Tenant) (investigation : ℕ) : Cases :=
  let db := s.db.updateInvestigation investigation fun i =>
    if i.tenant = tenant ∧ i.status = .active then { i with severity := max i.severity 12 } else i
  let present := db.investigations.any fun i => i.id == investigation && i.tenant == tenant
  let queued := s.reviews.any fun r =>
    r.investigationId == investigation && r.status == .pending
  if present && !queued then
    { db := { db with nextId := db.nextId + 1 }
      reviews := s.reviews ++ [⟨db.nextId, tenant, investigation, .pending⟩] }
  else { s with db := db }

/-- What a worker reports, with what the completion reads beside it: whether the lease is
still held, the floor's ruling on an active case, and the shape of the primary alert. -/
structure Report where
  run : ℕ
  leaseHeld : Bool
  status : Worker.RunStatus
  disposition : Option Disposition
  confidence : Option FloatVal
  floorVeto : Bool
  shape : Option AlertShape
  deriving DecidableEq

/-- `close_fp_floor_veto` rules only on a case that is still active. -/
def Report.effectiveDisposition (report : Report) (active : Bool) : Option Disposition :=
  if report.disposition = some .closeFp ∧ active ∧ report.floorVeto then some .escalate
  else report.disposition

def DB.isActive (db : DB) (tenant : Tenant) (investigation : ℕ) : Bool :=
  db.investigations.any fun i =>
    i.id == investigation && i.tenant == tenant && i.status == .active

/-- What the disposition does to the case. -/
def Cases.applyDisposition (ctx : Context) (s : Cases) (tenant : Tenant) (investigation : ℕ) :
    Option Disposition → Option Cases
  | some .closeFp => do
    let fields ← (buildReopenFields ctx s.db tenant investigation).toOption
    return { s with db := s.db.updateInvestigation investigation fun i =>
      if i.tenant = tenant ∧ i.status = .active then i.closedAsFp ctx.now fields else i }
  | some .escalate => some (s.recordHumanReviewRequested tenant investigation)
  | _ => some s

/-- The verdict that the completion memoizes. -/
def Cases.memoize (ctx : Context) (s : Cases) (tenant : Tenant) (report : Report)
    (effective : Option Disposition) : Cases :=
  match (Completion.mk report.status effective report.confidence).decision? with
  | some (decision, confidence) =>
    let cache := recordVerdictMemo s.db.verdictCache tenant report.shape decision confidence ctx.now
    { s with db := { s.db with verdictCache := cache } }
  | none => s

/-- Evidence that arrived meanwhile starts the next run of a case that is still active. -/
def Cases.followUp (s : Cases) (tenant : Tenant) (investigation : ℕ) : Option Cases :=
  let waiting := s.db.investigations.any fun i => i.id == investigation && i.tenant == tenant &&
    i.hasNewEvidence && i.status == .active
  if waiting then do
    let db ← (s.db.updateInvestigation investigation fun i =>
      if i.tenant = tenant then { i with hasNewEvidence := false } else i).startOnlyRun investigation
    return { s with db := db }
  else some s

/-- Halted on its budget, a run is live still: it can be resumed. -/
def DB.endRun (db : DB) (run : ℕ) (status : Worker.RunStatus) : DB :=
  { db with runs := db.runs.map fun r =>
      if r.id = run then { r with live := status == .haltedBudget } else r }

def Cases.completeRun (ctx : Context) (s : Cases) (tenant : Tenant) (report : Report) :
    Option Cases :=
  match s.db.runs.find? fun r => r.id == report.run && r.live with
  | none => none
  | some run =>
    if !report.leaseHeld then none
    else
      let s := { s with db := s.db.endRun report.run report.status }
      if report.status ≠ .completed then some s
      else do
        let effective := report.effectiveDisposition (s.db.isActive tenant run.investigationId)
        let s ← s.applyDisposition ctx tenant run.investigationId effective
        (s.memoize ctx tenant report effective).followUp tenant run.investigationId

/-! ## The analyst -/

/-- `record_human_decision_received` on the review's investigation. -/
def Cases.decideReview (ctx : Context) (s : Cases) (review : ℕ) (decision : Reviews.Decision) :
    Option Cases :=
  match s.reviews.find? fun r => r.id == review with
  | none => none
  | some row =>
    let reviews := s.reviews.map fun r =>
      if r.id = review then { r with status := decisionToReviewStatus decision } else r
    if decision = .reject then do
      let fields ← (buildReopenFields ctx s.db row.tenant row.investigationId).toOption
      return {
        reviews := reviews
        db := s.db.updateInvestigation row.investigationId fun i =>
          if i.tenant = row.tenant then i.closedAsFp ctx.now fields else i }
    else some { s with reviews := reviews }

def Cases.expireReview (s : Cases) (review : ℕ) : Cases :=
  { s with reviews := s.reviews.map fun r =>
      if r.id = review then { r with status := .expired } else r }

def Cases.cancelInvestigation (ctx : Context) (s : Cases) (tenant : Tenant)
    (investigation : ℕ) : Option Cases :=
  match s.db.investigations.find? fun i => i.id == investigation && i.tenant == tenant with
  | none => none
  | some i =>
    if i.status ∈ terminalStatuses then none
    else
      let db := s.db.updateInvestigation investigation fun i =>
        if i.tenant = tenant then { i with status := cancelledStatus, closedAt := some ctx.now }
        else i
      some { s with db := db.failRuns investigation }

/-- Alerts and keys move from `other` into `keep`, and `other` is closed. -/
def Cases.mergeInvestigations (ctx : Context) (s : Cases) (tenant : Tenant) (keep other : ℕ) :
    Cases :=
  let alerts := s.db.alerts.map fun a =>
    if a.tenant = tenant ∧ a.investigationId = some other then
      { a with investigationId := some keep }
    else a
  let entityKeys := s.db.entityKeys.map fun k =>
    if k.tenant = tenant ∧ k.investigationId = some other then
      { k with investigationId := some keep }
    else k
  let moved := { s.db with alerts := alerts, entityKeys := entityKeys }
  let db := moved.updateInvestigation other fun i =>
    if i.tenant = tenant then { i with status := closedStatus, closedAt := some ctx.now } else i
  { s with db := db.failRuns other }

/-- The alert moves to a fresh investigation with a run of its own. -/
def Cases.detachAlert (ctx : Context) (s : Cases) (tenant : Tenant) (alert : ℕ) :
    Option Cases :=
  match s.db.alerts.find? fun a => a.id == alert && a.tenant == tenant with
  | none => none
  | some row => do
    let opened : Investigation :=
      { id := s.db.nextId, tenant := tenant, status := .active, severity := row.severity
        openedAt := ctx.now }
    let alerts := s.db.alerts.map fun a =>
      if a.id = alert ∧ a.tenant = tenant then { a with investigationId := some opened.id } else a
    let entityKeys := s.db.entityKeys.map fun k =>
      if k.alertId = alert ∧ k.tenant = tenant then
        { k with investigationId := some opened.id }
      else k
    let moved := { s.db with
      investigations := s.db.investigations ++ [opened], nextId := s.db.nextId + 1
      alerts := alerts, entityKeys := entityKeys }
    let db ← moved.startOnlyRun opened.id
    return { s with db := db }

/-- `transition_run` and the resumption of a halted run. -/
def Cases.transitionRun (s : Cases) (run : ℕ) (live : Bool) : Option Cases :=
  let db := { s.db with runs := s.db.runs.map fun r =>
    if r.id = run then { r with live := live } else r }
  let crowded := s.db.runs.any fun r => r.id == run &&
    s.db.runs.any fun r' => r'.id != run && r'.investigationId == r.investigationId && r'.live
  if live && crowded then none else some { s with db := db }

/-! ## Runs -/

inductive CaseOp where
  | ingest (ctx : Context) (e : Ingest)
  | complete (ctx : Context) (tenant : Tenant) (report : Report)
  | decide (ctx : Context) (review : ℕ) (decision : Reviews.Decision)
  | expire (review : ℕ)
  | cancel (ctx : Context) (tenant : Tenant) (investigation : ℕ)
  | merge (ctx : Context) (tenant : Tenant) (keep other : ℕ)
  | detach (ctx : Context) (tenant : Tenant) (alert : ℕ)
  | transition (run : ℕ) (live : Bool)

/-- The rows an operation leaves, `none` where its transaction is rolled back. -/
def CaseOp.run (s : Cases) : CaseOp → Option Cases
  | .ingest ctx e => (triageEvent ctx s.db e).toOption.map fun result => { s with db := result.2 }
  | .complete ctx tenant report => s.completeRun ctx tenant report
  | .decide ctx review decision => s.decideReview ctx review decision
  | .expire review => some (s.expireReview review)
  | .cancel ctx tenant investigation => s.cancelInvestigation ctx tenant investigation
  | .merge ctx tenant keep other => some (s.mergeInvestigations ctx tenant keep other)
  | .detach ctx tenant alert => s.detachAlert ctx tenant alert
  | .transition run live => s.transitionRun run live

def Cases.step (s : Cases) (op : CaseOp) : Cases := (op.run s).getD s

end SocTalk.Triage
