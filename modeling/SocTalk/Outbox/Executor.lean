import SocTalk.Lib.Transaction
import SocTalk.Lib.Value
import SocTalk.Outbox.Store
import SocTalk.Response.Playbook

/-! The outbox executor: one row is claimed, handled and marked in one transaction, which
commits at the end. -/
namespace SocTalk.Outbox
open ReadCommitted Proposals Transaction

/-- A handler: the reference it returns, or the text of what it raises. -/
abbrev Handler := Tx (Option String)

/-! ## Claims -/

def leaseSeconds : Time := 60
def maxBackoffSeconds : ℕ := 1800

def backoff (attempts : ℕ) : ℕ := min (10 * 2 ^ attempts) maxBackoffSeconds

variable {P : Type}

/-- Due, or in flight under an expired lease; of one of the kinds; and not locked. -/
def claimableBy (v : View (Tables P) Resource) (now : Time) (kinds : Option (List String))
    (id : OutboxId) : Bool :=
  match v.db.rows id with
  | some row =>
    ((row.status == .pending && row.nextAttemptAt ≤ now) ||
      (row.status == .inFlight && match row.claimedAt with
        | some at_ => at_ < now - leaseSeconds
        | none => false)) &&
      (match kinds with
        | some kinds => kinds.contains row.kind
        | none => true) && !v.locked (.row id)
  | none => false

def nextAttemptOf (t : Tables P) (id : OutboxId) : Time :=
  match t.rows id with
  | some row => row.nextAttemptAt
  | none => 0

/-- `ORDER BY next_attempt_at ASC … LIMIT 1`. -/
def soonest (t : Tables P) : List OutboxId → Option OutboxId
  | [] => none
  | id :: ids =>
    match soonest t ids with
    | some other => if nextAttemptOf t other < nextAttemptOf t id then some other else some id
    | none => some id

def claimChoice (v : View (Tables P) Resource) (now : Time) (kinds : Option (List String)) :
    Option OutboxId :=
  soonest v.db (v.db.ids.filter (claimableBy v now kinds))

def OutboxRow.claimed (row : OutboxRow P) (now : Time) : OutboxRow P :=
  { row with status := .inFlight, claimedAt := some now }

/-! ## Marks -/

inductive Mark where
  | succeeded
  | failed
  deriving DecidableEq

/-- The row after a failure: another attempt later, or failed for good. -/
def OutboxRow.afterFailure (row : OutboxRow P) (now : Time) : OutboxRow P :=
  if row.maxAttempts ≤ row.attempts + 1 then
    { row with status := .failed, attempts := row.attempts + 1 }
  else
    { row with
      status := .pending, attempts := row.attempts + 1, claimedAt := none
      nextAttemptAt := now + backoff (row.attempts + 1) }

def OutboxRow.marked (row : OutboxRow P) (now : Time) : Mark → OutboxRow P
  | .succeeded => { row with status := .succeeded }
  | .failed => row.afterFailure now

/-- A text column refuses U+0000. -/
def storeText (s : String) : Tx Unit :=
  statement (if s.toList.contains '\x00' then some "invalid byte sequence for encoding" else none)

def markOutboxSucceeded (externalRef : Option String) : Tx Unit := storeText (externalRef.getD "")

/-- The attempts are read, then the error is stored with them. -/
def markOutboxFailed (err : String) : Tx Unit := do
  statement none
  storeText err

/-- The mark of a success and its audit row. -/
def recordSuccess (externalRef : Option String) : Tx Mark := do
  markOutboxSucceeded externalRef
  statement none
  pure .succeeded

/-- The mark of a failure and its audit row, which notes the error. -/
def recordFailure (err : String) : Tx Mark := do
  markOutboxFailed err
  storeText err
  pure .failed

/-- The handler for the row, or what raises in its place. -/
def handlerFor (kind : String) (handler : Option Handler) : Handler :=
  handler.getD (throw ("no handler registered for outbox kind " ++ Py.Value.repr (.str kind)))

/-- What `execute_one` does with a claimed row. -/
def executeClaimed (kind : String) (handler : Option Handler) : Tx Mark :=
  rescuing (handlerFor kind handler >>= recordSuccess) recordFailure

/-! ## The executor -/

/-- The handlers of an executor, by kind and claimed row. -/
abbrev Handlers (P : Type) := String → Option (OutboxRow P → Handler)

/-- `fetch` reads the claimed row, for these handlers. -/
inductive Stmt (P : Type) where
  | plain
  | fetch (id : OutboxId) (handlers : Handlers P)

/-- A call is the handling of a row. -/
abbrev Program (P : Type) := Prog (Tables P) (Write P) OutboxId (Stmt P) Resource

def updateRow (id : OutboxId) (f : OutboxRow P → OutboxRow P) (v : View (Tables P) Resource) :
    List (Write P) :=
  (v.db.rows id).toList.map fun row => .set id (f row)

def handlerOf (handlers : Handlers P) (row : OutboxRow P) : Option Handler :=
  (handlers row.kind).map fun handler => handler row

/-- Handle, mark and commit; what escapes `execute_one` ends the session with no commit. -/
def handleAndMark (now : Time) (handlers : Handlers P) (id : OutboxId) (row : OutboxRow P) :
    Program P :=
  .call id <|
  match executeClaimed row.kind (handlerOf handlers row) false with
  | (.ok mark, _) => .stmt .plain (updateRow id fun row => row.marked now mark) fun _ => .commit .plain
  | (.error _, _) => .rollback

/-- `execute_one`, in a transaction of the time `now`. -/
def executeOne (now : Time) (kinds : Option (List String)) (handlers : Handlers P) : Program P :=
  .stmt .plain (fun v => (claimChoice v now kinds).toList.map fun id => .lock (.row id)) fun v =>
  match claimChoice v now kinds with
  | none => .commit .plain
  | some id =>
    .stmt .plain (updateRow id fun row => row.claimed now) fun _ =>
    .stmt (.fetch id handlers) (fun _ => []) fun v =>
    match v.db.rows id with
    | none => .commit .plain
    | some row => handleAndMark now handlers id row

/-- `ON CONFLICT (idempotency_key) DO NOTHING`. -/
def enqueue (session : ℕ) (now : Time) (kind idempotencyKey : String) (payload : P) : Program P :=
  .stmt .plain
    (fun v =>
      if queued v.db idempotencyKey ∨ (v.db.rows session).isSome then []
      else [.insert session
        { kind := kind, idempotencyKey := idempotencyKey, payload := payload, nextAttemptAt := now }])
    fun v =>
      if !queued v.db idempotencyKey && (v.db.rows session).isSome then .rollback
      else .commit .plain

inductive Request (P : Type) where
  | enqueue (now : Time) (kind idempotencyKey : String) (payload : P)
  | execute (now : Time) (kinds : Option (List String)) (handlers : Handlers P)

def serve (session : ℕ) : Request P → Program P
  | .enqueue now kind idempotencyKey payload => enqueue session now kind idempotencyKey payload
  | .execute now kinds handlers => executeOne now kinds handlers

abbrev System (P : Type) :=
  Sys (Tables P) (Write P) OutboxId (Stmt P) Resource (Request P)

/-- The outbox before any request. -/
def init (P : Type) : System P := start ⟨Tables.empty, []⟩

/-! ## The handlers of the code -/

/-- The statements of the handlers outside any savepoint, each with the server's error. -/
structure Sql where
  context : Option String := none
  owned : Option String := none
  ledger : Option String := none
  route : Option String := none
  select : Option String := none
  claim : Option String := none
  executed : Option String := none
  failed : Option String := none
  event : Option String := none

/-- `tenant_context`: two settings on entry. -/
def tenantContext {α : Type} (sql : Sql) (body : Tx α) : Tx α := do
  statement sql.context
  statement sql.context
  body

/-- What `handle_response_action` finds out about its row. -/
structure ActionFacts where
  capability : String
  scopeMatches : Bool
  owned : Bool
  proposal : String

/-- The ledger row of a refusal, which is then raised. -/
def refuse (sql : Sql) (err : String) : Handler := do
  statement sql.ledger
  throw err

/-- `handle_response_action`; `capability` is the body of the capability's handler. -/
def handleResponseAction (facts : ActionFacts) (sql : Sql) (capability : Handler) : Handler :=
  tenantContext sql <|
  if !facts.scopeMatches then refuse sql "response_action payload/row scope mismatch"
  else do
    statement sql.owned
    if !facts.owned then refuse sql "response_action investigation/tenant mismatch"
    else match Response.capabilityOf facts.capability with
      | none => refuse sql ("capability " ++ Py.Value.repr (.str facts.capability) ++
          " is not in the vetted allowlist")
      | some spec =>
        if spec.approval ≠ .autonomous then do
          statement sql.route
          statement sql.ledger
          pure (some ("proposal:" ++ facts.proposal))
        else do
          let externalRef ← rescuing (nested capability) (refuse sql)
          statement sql.ledger
          pure externalRef

/-- `_emit_proposal_event`, which never raises out of an open transaction. -/
def emitProposalEvent (sql : Sql) : Tx Unit :=
  rescuing (nested (statement sql.event)) fun _ => pure ()

/-- What `handle_execute_proposal` finds out about a proposal of a response capability. -/
structure ProposalFacts where
  status : Option String
  claimable : Bool
  scopeMatches : Bool

/-- The branch of `handle_execute_proposal` for response capabilities. -/
def handleResponseProposal (facts : ProposalFacts) (sql : Sql) (capability : Handler) : Handler :=
  tenantContext sql do
    statement sql.claim
    if !facts.claimable then do
      statement sql.select
      statement sql.ledger
      pure (some ("noop:" ++ facts.status.getD "missing"))
    else if !facts.scopeMatches then do
      statement sql.failed
      refuse sql "execute_proposal payload/proposal scope mismatch"
    else do
      let externalRef ← rescuing (nested capability) fun err => do
        statement sql.failed
        statement sql.ledger
        emitProposalEvent sql
        throw err
      statement sql.executed
      statement sql.ledger
      emitProposalEvent sql
      pure externalRef

/-- The tool and the record of its outcome; no savepoint guards it. -/
def runTool (sql : Sql) (tool : Tx Unit) : Handler :=
  rescuing
    (do
      tool
      statement sql.executed
      statement sql.event
      pure none)
    fun err => do
      statement sql.failed
      statement sql.event
      throw err

/-- `_handle_execute_proposal`; `tool` is the body of the tool. -/
def handleToolProposal (proposal : String) (found : Bool) (sql : Sql) (tool : Tx Unit) :
    Handler := do
  statement sql.select
  if !found then throw ("proposal " ++ proposal ++ " vanished before execution")
  else tenantContext sql do
    statement sql.claim
    runTool sql tool

/-! ## Which handlers leave the transaction open -/

theorem keepsOpen_tenantContext {α : Type} {body : Tx α} (h : KeepsOpen body) :
    KeepsOpen (tenantContext {} body) :=
  keepsOpen_statement.bind fun _ => keepsOpen_statement.bind fun _ => h

theorem keepsOpen_refuse (err : String) : KeepsOpen (refuse {} err) :=
  keepsOpen_statement.bind fun _ => keepsOpen_throw err

theorem keepsOpen_emitProposalEvent (sql : Sql) : KeepsOpen (emitProposalEvent sql) :=
  (keepsOpen_nested _).rescuing fun _ => keepsOpen_pure ()

/-- As long as the statements around it get through, no capability aborts a response action. -/
theorem keepsOpen_handleResponseAction (facts : ActionFacts) (capability : Handler) :
    KeepsOpen (handleResponseAction facts {} capability) := by
  refine keepsOpen_tenantContext ?_
  split
  · exact keepsOpen_refuse _
  · refine keepsOpen_statement.bind fun _ => ?_
    split
    · exact keepsOpen_refuse _
    · split
      · exact keepsOpen_refuse _
      · split
        · exact keepsOpen_statement.bind fun _ => keepsOpen_statement.bind fun _ => keepsOpen_pure _
        · have hguarded := (keepsOpen_nested capability).rescuing keepsOpen_refuse
          exact hguarded.bind fun externalRef =>
            keepsOpen_statement.bind fun _ => keepsOpen_pure externalRef

theorem keepsOpen_handleResponseProposal (facts : ProposalFacts) (capability : Handler) :
    KeepsOpen (handleResponseProposal facts {} capability) := by
  refine keepsOpen_tenantContext (keepsOpen_statement.bind fun _ => ?_)
  split
  · exact keepsOpen_statement.bind fun _ => keepsOpen_statement.bind fun _ => keepsOpen_pure _
  · split
    · exact keepsOpen_statement.bind fun _ => keepsOpen_refuse _
    · have hguarded : KeepsOpen (rescuing (nested capability) fun err => do
          statement ({} : Sql).failed
          statement ({} : Sql).ledger
          emitProposalEvent {}
          throw err) :=
        (keepsOpen_nested capability).rescuing fun err => keepsOpen_statement.bind fun _ =>
          keepsOpen_statement.bind fun _ => (keepsOpen_emitProposalEvent {}).bind fun _ =>
            keepsOpen_throw err
      exact hguarded.bind fun externalRef => keepsOpen_statement.bind fun _ =>
        keepsOpen_statement.bind fun _ => (keepsOpen_emitProposalEvent {}).bind fun _ =>
          keepsOpen_pure externalRef

/-- A tool's proposal leaves the transaction as the tool does. -/
theorem keepsOpen_runTool_iff (tool : Tx Unit) : KeepsOpen (runTool {} tool) ↔ KeepsOpen tool := by
  unfold runTool KeepsOpen rescuing
  rw [bind_apply]
  rcases tool false with ⟨r, aborted⟩
  cases r with
  | ok a => cases aborted <;> exact Iff.rfl
  | error e => cases aborted <;> exact Iff.rfl

end SocTalk.Outbox
