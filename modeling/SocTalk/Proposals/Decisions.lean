import Mathlib.Algebra.Group.Nat.Defs
import SocTalk.Proposals.Store

/-! Creating, approving, rejecting and executing a proposal, statement by statement. -/
namespace SocTalk.Proposals
open ReadCommitted

/-- The statements that later conditions speak about. -/
inductive Stmt where
  | plain
  | decisionUpdate (proposal : ProposalId)

/-- A call performs the action of a proposal. -/
abbrev Program := Prog Tables Write ProposalId Stmt Resource

/-- `runMoves` says whether the unique index on live runs lets `transition_run` through,
`reply` whether the action returned or raised. -/
inductive Request where
  | create (tenant : TenantId) (investigation : InvestigationId) (run : Option ℕ)
      (actionType : String) (params : Params) (runMoves : Bool)
  | approve (proposal : ProposalId) (now : Time) (runMoves : Bool)
  | reject (proposal : ProposalId) (runMoves : Bool)
  | execute (now : Time) (reply : Bool)

def leaseSeconds : Time := 60
def maxBackoffSeconds : ℕ := 1800

def backoff (attempts : ℕ) : ℕ := min (10 * 2 ^ attempts) maxBackoffSeconds

/-- `RESPONSE_CAPABILITIES`. -/
def responseCapabilities : List String :=
  ["annotate_investigation", "notify_webhook", "external_action"]

/-- The tools registered with a handler. -/
def registry : List String := ["investigation.list_iocs", "investigation.list_assets"]

/-- `UPDATE proposals SET status = … WHERE id = …`. -/
def setStatus (p : ProposalId) (status : ProposalStatus) (v : View Tables Resource) :
    List Write :=
  (v.db.proposals p).toList.map fun row => .setProposal p { row with status := status }

def appendEvent (p : ProposalId) (kind : EventKind) (next : Program) : Program :=
  .stmt .plain (fun _ => [.insertEvent ⟨p, kind⟩]) fun _ => next

/-- `transition_run`, and the end of the request. -/
def transitionAndCommit (run : Option ℕ) (runMoves : Bool) : Program :=
  if run.isSome && !runMoves then .rollback else .commit .plain

def createProposal (session : ℕ) (row : ProposalRow) (runMoves : Bool) : Program :=
  .stmt .plain
    (fun v =>
      if (v.db.proposals session).isSome ∨
          (duplicateOf v.db row.investigation row.actionType row.params).isSome then []
      else [.insertProposal session row])
    fun v =>
  if (v.db.proposals session).isSome then .rollback
  else if (duplicateOf v.db row.investigation row.actionType row.params).isSome then
    .commit .plain
  else appendEvent session .proposalCreated (transitionAndCommit row.run runMoves)

/-- `ON CONFLICT (idempotency_key) DO NOTHING`. -/
def enqueueExecution (session : ℕ) (p : ProposalId) (row : ProposalRow) (now : Time)
    (next : Program) : Program :=
  .stmt .plain
    (fun v =>
      if queued v.db p ∨ (v.db.outbox session).isSome then []
      else [.insertOutbox session
        { tenant := row.tenant, proposal := p, actionType := row.actionType, nextAttemptAt := now }])
    fun v => if !queued v.db p && (v.db.outbox session).isSome then .rollback else next

def approveProposal (session : ℕ) (p : ProposalId) (now : Time) (runMoves : Bool) : Program :=
  .stmt .plain (fun _ => []) fun v =>
  match v.db.proposals p with
  | none => .rollback
  | some row =>
    if row.status ≠ .proposed then .rollback
    else
      .stmt (.decisionUpdate p) (setStatus p .approved) fun _ =>
      enqueueExecution session p row now
        (appendEvent p .proposalApproved (transitionAndCommit row.run runMoves))

def rejectProposal (p : ProposalId) (runMoves : Bool) : Program :=
  .stmt .plain (fun _ => []) fun v =>
  match v.db.proposals p with
  | none => .rollback
  | some row =>
    if row.status ≠ .proposed then .rollback
    else
      .stmt (.decisionUpdate p) (setStatus p .rejected) fun _ =>
      appendEvent p .proposalRejected (transitionAndCommit row.run runMoves)

/-! ## The outbox executor -/

/-- Due, or in flight under an expired lease, and not locked. -/
def claimableBy (v : View Tables Resource) (now : Time) (id : OutboxId) : Bool :=
  match v.db.outbox id with
  | some row =>
    ((row.status == .pending && row.nextAttemptAt ≤ now) ||
      (row.status == .inFlight && match row.claimedAt with
        | some at_ => at_ < now - leaseSeconds
        | none => false)) && !v.locked (.outbox id)
  | none => false

def nextAttemptOf (t : Tables) (id : OutboxId) : Time :=
  match t.outbox id with
  | some row => row.nextAttemptAt
  | none => 0

/-- `ORDER BY next_attempt_at ASC … LIMIT 1`. -/
def soonest (t : Tables) : List OutboxId → Option OutboxId
  | [] => none
  | id :: ids =>
    match soonest t ids with
    | some other => if nextAttemptOf t other < nextAttemptOf t id then some other else some id
    | none => some id

def claimChoice (v : View Tables Resource) (now : Time) : Option OutboxId :=
  soonest v.db (v.db.outboxIds.filter (claimableBy v now))

def updateOutbox (id : OutboxId) (f : OutboxRow → OutboxRow) (v : View Tables Resource) :
    List Write :=
  (v.db.outbox id).toList.map fun row => .setOutbox id (f row)

def markOutboxSucceeded (id : OutboxId) : Program :=
  .stmt .plain (updateOutbox id fun row => { row with status := .succeeded }) fun _ =>
  .commit .plain

/-- The row after a failure: another attempt later, or failed for good. -/
def OutboxRow.afterFailure (row : OutboxRow) (now : Time) : OutboxRow :=
  if row.maxAttempts ≤ row.attempts + 1 then
    { row with status := .failed, attempts := row.attempts + 1 }
  else
    { row with
      status := .pending, attempts := row.attempts + 1, claimedAt := none
      nextAttemptAt := now + backoff (row.attempts + 1) }

def markOutboxFailed (id : OutboxId) (now : Time) : Program :=
  .stmt .plain (updateOutbox id fun row => row.afterFailure now) fun _ => .commit .plain

/-- The action's outcome on the proposal, its event, and the outbox row. -/
def recordOutcome (id : OutboxId) (p : ProposalId) (now : Time) (returned : Bool) : Program :=
  if returned then
    .stmt .plain (setStatus p .executed) fun _ =>
    appendEvent p .proposalExecuted (markOutboxSucceeded id)
  else
    .stmt .plain (setStatus p .failed) fun _ =>
    appendEvent p .proposalFailed (markOutboxFailed id now)

/-- `_handle_execute_proposal`, for actions of the tool registry. -/
def executeToolProposal (id : OutboxId) (row : OutboxRow) (now : Time) (reply : Bool) : Program :=
  .stmt .plain (fun _ => []) fun v =>
  if (v.db.proposals row.proposal).isNone then markOutboxFailed id now
  else
    .stmt .plain (setStatus row.proposal .executing) fun _ =>
    if registry.contains row.actionType then
      .call row.proposal (recordOutcome id row.proposal now reply)
    else recordOutcome id row.proposal now false

/-- The proposal the guarded update claims: `WHERE id = … AND tenant_id = … AND
action_type = … AND status = 'approved'`. -/
def claimedProposal (t : Tables) (row : OutboxRow) : Option ProposalRow :=
  match t.proposals row.proposal with
  | some prow =>
    if prow.tenant = row.tenant ∧ prow.actionType = row.actionType ∧ prow.status = .approved then
      some prow
    else none
  | none => none

/-- `handle_execute_proposal`, for response capabilities. -/
def executeResponseProposal (id : OutboxId) (row : OutboxRow) (now : Time) (reply : Bool) :
    Program :=
  .stmt .plain
    (fun v => (claimedProposal v.db row).toList.map fun prow =>
      .setProposal row.proposal { prow with status := .executing })
    fun v =>
  match claimedProposal v.db row with
  | none => markOutboxSucceeded id
  | some prow =>
    if prow.params.envelopeTenant ≠ row.tenant ∨
        prow.params.envelopeInvestigation ≠ prow.investigation then
      .stmt .plain (setStatus row.proposal .failed) fun _ => markOutboxFailed id now
    else .call row.proposal (recordOutcome id row.proposal now reply)

def executeProposal (id : OutboxId) (row : OutboxRow) (now : Time) (reply : Bool) : Program :=
  if responseCapabilities.contains row.actionType then executeResponseProposal id row now reply
  else executeToolProposal id row now reply

/-- `execute_one`: claim, execute and record in one transaction. -/
def executeOne (now : Time) (reply : Bool) : Program :=
  .stmt .plain (fun v => ((claimChoice v now).toList.map fun id => .lock (.outbox id))) fun v =>
  match claimChoice v now with
  | none => .commit .plain
  | some id =>
    .stmt .plain
      (updateOutbox id fun row => { row with status := .inFlight, claimedAt := some now }) fun _ =>
    .stmt .plain (fun _ => []) fun v =>
    match v.db.outbox id with
    | none => .commit .plain
    | some row => executeProposal id row now reply

def serve (session : ℕ) : Request → Program
  | .create tenant investigation run actionType params runMoves =>
    createProposal session
      { tenant := tenant, investigation := investigation, run := run, actionType := actionType,
        params := params } runMoves
  | .approve p now runMoves => approveProposal session p now runMoves
  | .reject p runMoves => rejectProposal p runMoves
  | .execute now reply => executeOne now reply

abbrev System := Sys Tables Write ProposalId Stmt Resource Request

/-- The tables before any request. -/
def init : System := start ⟨Tables.empty, []⟩

end SocTalk.Proposals
