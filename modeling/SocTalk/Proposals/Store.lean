import Mathlib.Data.Int.Notation
import SocTalk.Lib.ReadCommitted

/-! Proposals, the outbox rows that execute them, and the events their decisions append. -/
namespace SocTalk.Proposals
open ReadCommitted

abbrev ProposalId := ℕ
abbrev OutboxId := ℕ
/-- Tenants and investigations by the text of their ids. -/
abbrev TenantId := String
abbrev InvestigationId := String
/-- Seconds. -/
abbrev Time := ℤ

inductive ProposalStatus where
  | proposed
  | approved
  | rejected
  | executing
  | executed
  | failed
  deriving DecidableEq

/-- The statuses an approved proposal passes through. -/
def ProposalStatus.pastApproval : ProposalStatus → Bool
  | .proposed => false
  | .rejected => false
  | _ => true

/-- Stored parameters: the scope their envelope names, and the rest as canonical text. -/
structure Params where
  envelopeTenant : String
  envelopeInvestigation : String
  body : String
  deriving DecidableEq

structure ProposalRow where
  tenant : TenantId
  investigation : InvestigationId
  run : Option ℕ
  actionType : String
  params : Params
  status : ProposalStatus := .proposed
  deriving DecidableEq

inductive OutboxStatus where
  | pending
  | inFlight
  | succeeded
  | failed
  deriving DecidableEq

/-- An `execute_proposal` row; its idempotency key is the proposal. -/
structure OutboxRow where
  tenant : TenantId
  proposal : ProposalId
  actionType : String
  status : OutboxStatus := .pending
  attempts : ℕ := 0
  maxAttempts : ℕ := 5
  nextAttemptAt : Time
  claimedAt : Option Time := none
  deriving DecidableEq

inductive EventKind where
  | proposalCreated
  | proposalApproved
  | proposalRejected
  | proposalExecuted
  | proposalFailed
  deriving DecidableEq

structure ProposalEvent where
  proposal : ProposalId
  kind : EventKind
  deriving DecidableEq

/-- The id lists hold the inserted rows in order. -/
structure Tables where
  proposals : ProposalId → Option ProposalRow
  proposalIds : List ProposalId
  outbox : OutboxId → Option OutboxRow
  outboxIds : List OutboxId
  events : List ProposalEvent

def Tables.empty : Tables := ⟨fun _ => none, [], fun _ => none, [], []⟩

/-- What a transaction locks: a row, or an entry of a unique index. The proposals' key is a
hash of investigation, action and parameters. -/
inductive Resource where
  | proposal (id : ProposalId)
  | proposalKey (investigation : InvestigationId) (actionType : String) (params : Params)
  | outbox (id : OutboxId)
  | outboxKey (proposal : ProposalId)
  deriving DecidableEq

/-- Updates carry the whole new row: the row is locked when it is read. -/
inductive Write where
  | setProposal (id : ProposalId) (row : ProposalRow)
  | insertProposal (id : ProposalId) (row : ProposalRow)
  | setOutbox (id : OutboxId) (row : OutboxRow)
  | insertOutbox (id : OutboxId) (row : OutboxRow)
  | insertEvent (e : ProposalEvent)
  | lock (r : Resource)
  deriving DecidableEq

def Write.apply : Write → Tables → Tables
  | .setProposal id row, t => { t with proposals := Function.update t.proposals id (some row) }
  | .insertProposal id row, t =>
    { t with
      proposals := Function.update t.proposals id (some row)
      proposalIds := t.proposalIds ++ [id] }
  | .setOutbox id row, t => { t with outbox := Function.update t.outbox id (some row) }
  | .insertOutbox id row, t =>
    { t with
      outbox := Function.update t.outbox id (some row)
      outboxIds := t.outboxIds ++ [id] }
  | .insertEvent e, t => { t with events := t.events ++ [e] }
  | .lock _, t => t

def Write.locks : Write → List Resource
  | .setProposal id _ => [.proposal id]
  | .insertProposal id row =>
    [.proposal id, .proposalKey row.investigation row.actionType row.params]
  | .setOutbox id _ => [.outbox id]
  | .insertOutbox id row => [.outbox id, .outboxKey row.proposal]
  | .insertEvent _ => []
  | .lock r => [r]

/-- The committed value behind a resource. -/
def rowOf (r : Resource) (t : Tables) : Option ProposalRow × Option OutboxRow :=
  match r with
  | .proposal id => (t.proposals id, none)
  | .outbox id => (none, t.outbox id)
  | _ => (none, none)

theorem Write.frame (w : Write) (r : Resource) (t : Tables) (h : r ∉ w.locks) :
    rowOf r (w.apply t) = rowOf r t := by
  cases r with
  | proposal id =>
    cases w with
    | setProposal id' row =>
      have hne : id ≠ id' := by simpa [Write.locks] using h
      simp [rowOf, Write.apply, Function.update_of_ne hne]
    | insertProposal id' row =>
      have hne : id ≠ id' := by simpa [Write.locks] using h
      simp [rowOf, Write.apply, Function.update_of_ne hne]
    | _ => rfl
  | outbox id =>
    cases w with
    | setOutbox id' row =>
      have hne : id ≠ id' := by simpa [Write.locks] using h
      simp [rowOf, Write.apply, Function.update_of_ne hne]
    | insertOutbox id' row =>
      have hne : id ≠ id' := by simpa [Write.locks] using h
      simp [rowOf, Write.apply, Function.update_of_ne hne]
    | _ => rfl
  | proposalKey c a p => rfl
  | outboxKey p => rfl

/-- The store of proposals and their outbox. -/
def store : Store Tables Write Resource (Option ProposalRow × Option OutboxRow) where
  apply := Write.apply
  locks := Write.locks
  row := rowOf
  frame := Write.frame

/-! ## The tables after a list of writes -/

def Write.proposalRow? (id : ProposalId) : Write → Option ProposalRow
  | .setProposal id' row => if id' = id then some row else none
  | .insertProposal id' row => if id' = id then some row else none
  | _ => none

def Write.outboxRow? (id : OutboxId) : Write → Option OutboxRow
  | .setOutbox id' row => if id' = id then some row else none
  | .insertOutbox id' row => if id' = id then some row else none
  | _ => none

def Write.event? : Write → Option ProposalEvent
  | .insertEvent e => some e
  | _ => none

theorem proposals_apply (id : ProposalId) (w : Write) (t : Tables) :
    (store.apply w t).proposals id = (w.proposalRow? id).or (t.proposals id) := by
  cases w with
  | setProposal id' row =>
    by_cases h : id' = id
    · simp [store, Write.apply, Write.proposalRow?, h]
    · simp [store, Write.apply, Write.proposalRow?, h, Function.update_of_ne (Ne.symm h)]
  | insertProposal id' row =>
    by_cases h : id' = id
    · simp [store, Write.apply, Write.proposalRow?, h]
    · simp [store, Write.apply, Write.proposalRow?, h, Function.update_of_ne (Ne.symm h)]
  | _ => rfl

theorem outbox_apply (id : OutboxId) (w : Write) (t : Tables) :
    (store.apply w t).outbox id = (w.outboxRow? id).or (t.outbox id) := by
  cases w with
  | setOutbox id' row =>
    by_cases h : id' = id
    · simp [store, Write.apply, Write.outboxRow?, h]
    · simp [store, Write.apply, Write.outboxRow?, h, Function.update_of_ne (Ne.symm h)]
  | insertOutbox id' row =>
    by_cases h : id' = id
    · simp [store, Write.apply, Write.outboxRow?, h]
    · simp [store, Write.apply, Write.outboxRow?, h, Function.update_of_ne (Ne.symm h)]
  | _ => rfl

theorem proposals_applyAll (ws : List Write) (t : Tables) (id : ProposalId) :
    (∃ w ∈ ws, ∃ row, w.proposalRow? id = some row ∧
        (store.applyAll ws t).proposals id = some row) ∨
      ((∀ w ∈ ws, w.proposalRow? id = none) ∧
        (store.applyAll ws t).proposals id = t.proposals id) :=
  store.lookup_applyAll (fun t => t.proposals id) (proposals_apply id) ws t

theorem outbox_applyAll (ws : List Write) (t : Tables) (id : OutboxId) :
    (∃ w ∈ ws, ∃ row, w.outboxRow? id = some row ∧
        (store.applyAll ws t).outbox id = some row) ∨
      ((∀ w ∈ ws, w.outboxRow? id = none) ∧ (store.applyAll ws t).outbox id = t.outbox id) :=
  store.lookup_applyAll (fun t => t.outbox id) (outbox_apply id) ws t

theorem events_applyAll (ws : List Write) (t : Tables) :
    (store.applyAll ws t).events = t.events ++ ws.filterMap Write.event? :=
  store.appended_applyAll (fun w t => by cases w <;> simp [store, Write.apply, Write.event?]) ws t

/-! ## Reading the tables -/

/-- The proposal a new one would duplicate. -/
def duplicateOf (t : Tables) (c : InvestigationId) (actionType : String) (params : Params) :
    Option ProposalId :=
  t.proposalIds.find? fun id => match t.proposals id with
    | some row => row.investigation == c && row.actionType == actionType && row.params == params
    | none => false

/-- The outbox already has a row under the proposal's key. -/
def queued (t : Tables) (p : ProposalId) : Bool :=
  t.outboxIds.any fun id => match t.outbox id with
    | some row => row.proposal == p
    | none => false

end SocTalk.Proposals
