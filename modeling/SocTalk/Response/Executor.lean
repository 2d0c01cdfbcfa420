import SocTalk.Outbox.Executor
import SocTalk.Proposals.Decisions

/-! The response executor over the outbox and the proposals: rows of response actions are drained,
gated ones into proposals, and approved proposals are executed. The tables count each proposal's
approvals and the executions that claimed it. -/
namespace SocTalk.Response.Gated
open ReadCommitted
open Proposals (ProposalId ProposalStatus OutboxId Time)
open Outbox (Mark)

/-! ## Tables -/

/-- The payload of a response action: the scope its envelope names, its key, and the rest of
envelope, playbook and parameters as canonical text. -/
structure Action where
  envelopeTenant : String
  envelopeInvestigation : String
  capability : String
  delivery : String
  body : String
  deriving DecidableEq

/-- A row's payload with the tenant and investigation of the row itself. -/
inductive Payload where
  | responseAction (tenant investigation : String) (action : Action)
  | executeProposal (tenant : String) (proposal : ProposalId) (actionType : String)
  deriving DecidableEq

def Payload.kind : Payload → String
  | .responseAction _ _ _ => "response_action"
  | .executeProposal _ _ _ => "execute_proposal"

/-- `RESPONSE_KINDS`. -/
def responseKinds : List String := ["response_action", "execute_proposal"]

structure ProposalRow where
  tenant : String
  investigation : String
  actionType : String
  params : Action
  status : ProposalStatus := .proposed
  deriving DecidableEq

/-- What the unique index on proposals hashes. -/
structure ProposalKey where
  investigation : String
  actionType : String
  params : Action
  deriving DecidableEq

def ProposalRow.key (row : ProposalRow) : ProposalKey :=
  ⟨row.investigation, row.actionType, row.params⟩

/-- `proposals` holds the inserted rows in order, each under its id. -/
structure Tables where
  outbox : Outbox.Tables Payload
  proposals : List (ProposalId × ProposalRow)
  approvals : ProposalId → ℕ
  executions : ProposalId → ℕ

def Tables.empty : Tables := ⟨Outbox.Tables.empty, [], fun _ => 0, fun _ => 0⟩

/-- The proposal under an id. -/
def Tables.proposal (t : Tables) (id : ProposalId) : Option ProposalRow :=
  (t.proposals.find? fun e => e.1 == id).map (·.2)

/-- The unique index has an entry for the key. -/
def Tables.taken (t : Tables) (key : ProposalKey) : Bool := t.proposals.any fun e => e.2.key == key

inductive Resource where
  | outbox (r : Outbox.Resource)
  | proposal (id : ProposalId)
  | proposalKey (key : ProposalKey)
  deriving DecidableEq

/-- `approve` and `claim` are the updates to `approved` and, guarded, to `executing`; `setStatus`
is every other one. -/
inductive Write where
  | outbox (w : Outbox.Write Payload)
  | insert (id : ProposalId) (row : ProposalRow)
  | approve (id : ProposalId)
  | claim (id : ProposalId)
  | setStatus (id : ProposalId) (status : ProposalStatus)

def withStatus (id : ProposalId) (status : ProposalStatus) (e : ProposalId × ProposalRow) :
    ProposalId × ProposalRow :=
  if e.1 = id then (e.1, { e.2 with status := status }) else e

def Tables.withStatus (t : Tables) (id : ProposalId) (status : ProposalStatus) : Tables :=
  { t with proposals := t.proposals.map (Gated.withStatus id status) }

def Write.apply : Write → Tables → Tables
  | .outbox w, t => { t with outbox := w.apply t.outbox }
  | .insert id row, t => { t with proposals := t.proposals ++ [(id, row)] }
  | .approve id, t =>
    { t.withStatus id .approved with
      approvals := Function.update t.approvals id (t.approvals id + 1) }
  | .claim id, t =>
    { t.withStatus id .executing with
      executions := Function.update t.executions id (t.executions id + 1) }
  | .setStatus id status, t => t.withStatus id status

def Write.locks : Write → List Resource
  | .outbox w => w.locks.map .outbox
  | .insert id row => [.proposal id, .proposalKey row.key]
  | .approve id => [.proposal id]
  | .claim id => [.proposal id]
  | .setStatus id _ => [.proposal id]

/-- The committed value behind a resource: a proposal with its counts, the proposals under an
entry of the unique index, or a row of the outbox. -/
structure Value where
  proposal : Option ProposalRow := none
  approvals : ℕ := 0
  executions : ℕ := 0
  holders : ProposalId → Bool := fun _ => false
  outbox : Option (Option (Outbox.OutboxRow Payload) × List (Outbox.OutboxRow Payload)) := none

/-- A proposal of this id has this key. -/
def holds (t : Tables) (key : ProposalKey) (id : ProposalId) : Bool :=
  t.proposals.any fun e => e.1 == id && e.2.key == key

def rowOf (r : Resource) (t : Tables) : Value :=
  match r with
  | .outbox r => { outbox := some (Outbox.rowOf r t.outbox) }
  | .proposal id =>
    { proposal := t.proposal id, approvals := t.approvals id, executions := t.executions id }
  | .proposalKey key => { holders := holds t key }

@[simp] theorem withStatus_fst (id : ProposalId) (s : ProposalStatus)
    (e : ProposalId × ProposalRow) : (withStatus id s e).1 = e.1 := by
  unfold withStatus
  split <;> rfl

/-- A status is no part of a key. -/
@[simp] theorem withStatus_key (id : ProposalId) (s : ProposalStatus)
    (e : ProposalId × ProposalRow) : (withStatus id s e).2.key = e.2.key := by
  unfold withStatus
  split <;> rfl

theorem proposal_withStatus (t : Tables) (id : ProposalId) (s : ProposalStatus) (p : ProposalId) :
    (t.withStatus id s).proposal p =
      if p = id then (t.proposal p).map fun row => { row with status := s } else t.proposal p := by
  unfold Tables.proposal Tables.withStatus
  dsimp only
  rw [List.find?_map]
  have hsame : ((fun e : ProposalId × ProposalRow => e.1 == p) ∘ withStatus id s) =
      fun e => e.1 == p := by
    funext e
    simp
  rw [hsame]
  cases hfind : t.proposals.find? fun e => e.1 == p with
  | none => simp
  | some e =>
    have hp : e.1 = p := by simpa using List.find?_some hfind
    by_cases hid : p = id
    · simp [withStatus, hp, hid]
    · simp [withStatus, hp, hid]

theorem proposal_insert (t : Tables) (id : ProposalId) (row : ProposalRow) (p : ProposalId) :
    ((Write.insert id row).apply t).proposal p =
      (t.proposal p).or (if p = id then some row else none) := by
  unfold Tables.proposal Write.apply
  dsimp only
  rw [List.find?_append]
  cases t.proposals.find? fun e => e.1 == p with
  | some e => rfl
  | none =>
    by_cases hid : p = id
    · simp [hid]
    · simp [hid, Ne.symm hid]

theorem holds_withStatus (t : Tables) (id : ProposalId) (s : ProposalStatus) (key : ProposalKey) :
    holds (t.withStatus id s) key = holds t key := by
  funext p
  unfold holds Tables.withStatus
  dsimp only
  rw [List.any_map]
  congr 1
  funext e
  simp

theorem holds_insert (t : Tables) (id : ProposalId) (row : ProposalRow) (key : ProposalKey)
    (p : ProposalId) :
    holds ((Write.insert id row).apply t) key p = (holds t key p || (id == p && row.key == key)) := by
  unfold holds Write.apply
  dsimp only
  rw [List.any_append]
  simp

theorem holds_of_proposal {t : Tables} {p : ProposalId} {row : ProposalRow}
    (h : t.proposal p = some row) : holds t row.key p = true := by
  obtain ⟨e, he, rfl⟩ := Option.map_eq_some_iff.mp h
  unfold holds
  rw [List.any_eq_true]
  exact ⟨e, List.mem_of_find?_eq_some he, by simpa using List.find?_some he⟩

theorem Write.frame (w : Write) (r : Resource) (t : Tables) (h : r ∉ w.locks) :
    rowOf r (w.apply t) = rowOf r t := by
  have hstatus : ∀ (id : ProposalId) (s : ProposalStatus), r ≠ .proposal id →
      rowOf r (t.withStatus id s) = rowOf r t := by
    intro id s hne
    cases r with
    | outbox r => rfl
    | proposalKey key => simp only [rowOf, holds_withStatus]
    | proposal p =>
      have hp : p ≠ id := fun heq => hne (congrArg _ heq)
      simp only [rowOf, proposal_withStatus, if_neg hp]
      rfl
  cases w with
  | outbox w =>
    cases r with
    | outbox r =>
      have hlock : r ∉ w.locks := fun hr => h (List.mem_map.mpr ⟨r, hr, rfl⟩)
      simp only [rowOf, Write.apply, Outbox.Write.frame w r t.outbox hlock]
    | _ => rfl
  | setStatus id s => exact hstatus id s (by simpa [Write.locks] using h)
  | approve id =>
    have hne : r ≠ .proposal id := by simpa [Write.locks] using h
    rw [← hstatus id .approved hne]
    cases r with
    | proposal p =>
      have hp : p ≠ id := fun heq => hne (congrArg _ heq)
      simp only [rowOf, Write.apply, Function.update_of_ne hp]
      rfl
    | _ => rfl
  | claim id =>
    have hne : r ≠ .proposal id := by simpa [Write.locks] using h
    rw [← hstatus id .executing hne]
    cases r with
    | proposal p =>
      have hp : p ≠ id := fun heq => hne (congrArg _ heq)
      simp only [rowOf, Write.apply, Function.update_of_ne hp]
      rfl
    | _ => rfl
  | insert id row =>
    obtain ⟨hid, hkey⟩ : r ≠ .proposal id ∧ r ≠ .proposalKey row.key := by
      simpa [Write.locks] using h
    cases r with
    | outbox r => rfl
    | proposal p =>
      have hp : p ≠ id := fun heq => hid (congrArg _ heq)
      simp only [rowOf, proposal_insert, if_neg hp, Option.or_none]
      rfl
    | proposalKey key =>
      have hk : (row.key == key) = false := by
        rw [beq_eq_false_iff_ne]
        exact fun heq => hkey (congrArg _ heq.symm)
      have hholds : holds ((Write.insert id row).apply t) key = holds t key := by
        funext p
        rw [holds_insert, hk, Bool.and_false, Bool.or_false]
      simp only [rowOf, hholds]

def store : Store Tables Write Resource Value where
  apply := Write.apply
  locks := Write.locks
  row := rowOf
  frame := Write.frame

/-! ## Programs -/

/-- An action as it is performed, by the autonomous path, under an approved proposal, or as a
tool. -/
inductive Call where
  | autonomous (capability : String) (action : Action)
  | approved (proposal : ProposalId) (action : Action)
  | tool (proposal : ProposalId) (name : String)
  deriving DecidableEq

abbrev Program := Prog Tables Write Call Unit Resource

def outboxView (v : View Tables Resource) : View (Outbox.Tables Payload) Outbox.Resource :=
  ⟨v.db.outbox, fun r => v.locked (.outbox r)⟩

/-- A statement that only writes. -/
def run (writes : View Tables Resource → List Write) (next : Program) : Program :=
  .stmt () writes fun _ => next

def updateOutbox (id : OutboxId) (f : Outbox.OutboxRow Payload → Outbox.OutboxRow Payload) :
    View Tables Resource → List Write :=
  fun v => (Outbox.updateRow id f (outboxView v)).map .outbox

/-- The mark of a row, and the end of its execution. -/
def markAndCommit (id : OutboxId) (now : Time) (mark : Mark) : Program :=
  run (updateOutbox id fun row => row.marked now mark) (.commit ())

/-- `create_proposal`; the caller's transaction goes on. -/
def createProposal (session : ℕ) (row : ProposalRow) (next : Program) : Program :=
  .stmt ()
    (fun v =>
      if (v.db.proposal session).isSome ∨ v.db.taken row.key then []
      else [.insert session row])
    fun v =>
  if !v.db.taken row.key && (v.db.proposal session).isSome then .rollback else next

/-- `_route_to_proposal`. -/
def routeToProposal (session : ℕ) (tenant : String) (action : Action) (next : Program) : Program :=
  createProposal session
    { tenant := tenant, investigation := action.envelopeInvestigation
      actionType := action.capability, params := action } next

/-- What an execution meets outside the tables: whether the investigation is the tenant's, and
whether what is called returns. -/
structure Env where
  owned : Bool
  returns : Bool

/-- `handle_response_action`. -/
def handleResponseAction (session : ℕ) (id : OutboxId) (now : Time)
    (tenant investigation : String) (action : Action) (env : Env) : Program :=
  if action.envelopeTenant ≠ tenant ∨ action.envelopeInvestigation ≠ investigation ∨ !env.owned then
    markAndCommit id now .failed
  else
    match capabilityOf action.capability with
    | none => markAndCommit id now .failed
    | some spec =>
      if spec.approval ≠ .autonomous then
        routeToProposal session tenant action (markAndCommit id now .succeeded)
      else
        .call (.autonomous action.capability action)
          (markAndCommit id now (if env.returns then .succeeded else .failed))

/-- The row of the guarded update: `WHERE id = … AND tenant_id = … AND action_type = … AND
status = 'approved'`. -/
def claimable (t : Tables) (p : ProposalId) (tenant actionType : String) : Option ProposalRow :=
  match t.proposal p with
  | some row =>
    if row.tenant = tenant ∧ row.actionType = actionType ∧ row.status = .approved then some row
    else none
  | none => none

/-- `handle_execute_proposal`, for response capabilities. -/
def handleResponseProposal (id : OutboxId) (now : Time) (tenant : String) (p : ProposalId)
    (actionType : String) (env : Env) : Program :=
  .stmt ()
    (fun v => if (claimable v.db p tenant actionType).isSome then [.claim p] else [])
    fun v =>
  match claimable v.db p tenant actionType with
  | none => markAndCommit id now .succeeded
  | some row =>
    if row.params.envelopeTenant ≠ tenant ∨ row.params.envelopeInvestigation ≠ row.investigation then
      run (fun _ => [.setStatus p .failed]) (markAndCommit id now .failed)
    else
      .call (.approved p row.params) <|
      if env.returns then
        run (fun _ => [.setStatus p .executed]) (markAndCommit id now .succeeded)
      else run (fun _ => [.setStatus p .failed]) (markAndCommit id now .failed)

/-- `_handle_execute_proposal`, for the tools of the registry. -/
def handleToolProposal (id : OutboxId) (now : Time) (p : ProposalId) (actionType : String)
    (env : Env) : Program :=
  .stmt () (fun _ => []) fun v =>
  if (v.db.proposal p).isNone then markAndCommit id now .failed
  else
    run (fun _ => [.setStatus p .executing]) <|
    let failed := run (fun _ => [.setStatus p .failed]) (markAndCommit id now .failed)
    if Proposals.registry.contains actionType then
      .call (.tool p actionType) <|
      if env.returns then
        run (fun _ => [.setStatus p .executed]) (markAndCommit id now .succeeded)
      else failed
    else failed

/-- The handler of each kind of row. -/
def handle (session : ℕ) (id : OutboxId) (now : Time) (env : Env) : Payload → Program
  | .responseAction tenant investigation action =>
    handleResponseAction session id now tenant investigation action env
  | .executeProposal tenant p actionType =>
    if (capabilityOf actionType).isSome then
      handleResponseProposal id now tenant p actionType env
    else handleToolProposal id now p actionType env

/-- `execute_one`, with the response executor's kinds and handlers. -/
def executeOne (session : ℕ) (now : Time) (env : Env) : Program :=
  let choice := fun v => Outbox.claimChoice (outboxView v) now (some responseKinds)
  .stmt () (fun v => (choice v).toList.map fun id => .outbox (.lock (.row id))) fun v =>
  match choice v with
  | none => .commit ()
  | some id =>
    run (updateOutbox id fun row => row.claimed now) <|
    .stmt () (fun _ => []) fun v =>
    match v.db.outbox.rows id with
    | none => .commit ()
    | some row => handle session id now env row.payload

/-- `ON CONFLICT (idempotency_key) DO NOTHING`. -/
def enqueue (session : ℕ) (now : Time) (idempotencyKey : String) (payload : Payload) : Program :=
  .stmt ()
    (fun v =>
      if Outbox.queued v.db.outbox idempotencyKey ∨ (v.db.outbox.rows session).isSome then []
      else [.outbox (.insert session
        { kind := payload.kind, idempotencyKey := idempotencyKey, payload := payload
          nextAttemptAt := now })])
    fun v =>
      if !Outbox.queued v.db.outbox idempotencyKey && (v.db.outbox.rows session).isSome then .rollback
      else .commit ()

/-- `approve_proposal`: the status is read first, the update is by id. -/
def approveProposal (session : ℕ) (p : ProposalId) (now : Time) : Program :=
  .stmt () (fun _ => []) fun v =>
  match v.db.proposal p with
  | none => .rollback
  | some row =>
    if row.status ≠ .proposed then .rollback
    else
      run (fun _ => [.approve p]) <|
      enqueue session now ("proposal:" ++ toString p) (.executeProposal row.tenant p row.actionType)

def rejectProposal (p : ProposalId) : Program :=
  .stmt () (fun _ => []) fun v =>
  match v.db.proposal p with
  | none => .rollback
  | some row =>
    if row.status ≠ .proposed then .rollback
    else run (fun _ => [.setStatus p .rejected]) (.commit ())

/-- `dispatch` enqueues a response action under its delivery key; `propose` is any other caller
of `create_proposal`. -/
inductive Request where
  | dispatch (now : Time) (tenant investigation : String) (action : Action)
  | propose (tenant investigation actionType : String) (params : Action)
  | approve (proposal : ProposalId) (now : Time)
  | reject (proposal : ProposalId)
  | execute (now : Time) (env : Env)

def serve (session : ℕ) : Request → Program
  | .dispatch now tenant investigation action =>
    enqueue session now action.delivery (.responseAction tenant investigation action)
  | .propose tenant investigation actionType params =>
    createProposal session
      { tenant := tenant, investigation := investigation, actionType := actionType, params := params }
      (.commit ())
  | .approve p now => approveProposal session p now
  | .reject p => rejectProposal p
  | .execute now env => executeOne session now env

abbrev System := Sys Tables Write Call Unit Resource Request

/-- The tables before any request. -/
def init : System := start ⟨Tables.empty, []⟩

def always : Unit → View Tables Resource → Prop := fun _ _ => True

instance (lab : Unit) (v : View Tables Resource) : Decidable (always lab v) := isTrue trivial

end SocTalk.Response.Gated
