import SocTalk.Lib.Float
import SocTalk.Lib.ReadCommitted

/-! The rows of one tenant's runs, investigations and spend ledger, and the writes on them. -/
namespace SocTalk.Runs
open ReadCommitted

abbrev RunId := ℕ
abbrev InvestigationId := ℕ
/-- Lease ids are minted fresh; the number of the claiming session stands for the id. -/
abbrev LeaseId := ℕ
/-- Seconds. -/
abbrev Time := ℤ

inductive RunStatus where
  | active
  | paused
  | waitingOnGate
  | haltedBudget
  | completed
  | failed
  deriving DecidableEq

/-- The statuses under the partial unique index on runs, one row per investigation. -/
def RunStatus.live : RunStatus → Bool
  | .active => true
  | .paused => true
  | .waitingOnGate => true
  | .haltedBudget => true
  | .completed => false
  | .failed => false

inductive InvestigationStatus where
  | active
  | autoClosedFp
  | closed
  | cancelled
  deriving DecidableEq

structure RunRow where
  investigation : InvestigationId
  status : RunStatus := .active
  startedAt : Time
  notBefore : Time
  claimedAt : Option Time := none
  leaseId : Option LeaseId := none
  leaseExpiresAt : Option Time := none
  attempts : ℕ := 0
  maxAttempts : ℕ := 4
  tokensUsed : ℕ := 0
  tokensBudget : ℕ := 200000
  dollarsUsed : ℚ := 0
  dollarsBudget : ℚ := 5
  deriving DecidableEq

structure InvestigationRow where
  status : InvestigationStatus := .active
  severity : ℕ
  hasNewEvidence : Bool := false
  deriving DecidableEq

structure LedgerRow where
  run : RunId
  tokensDelta : ℤ
  dollarsDelta : ℚ
  costBasis : Option String
  priceSource : Option String
  deriving DecidableEq

inductive EffectKind where
  | ended
  | closed
  | reviewRequested
  | memoized (escalate : Bool)
  | dispatched
  | followUp (run : RunId)
  deriving DecidableEq

/-- What a completion writes, with the run and the lease it was written under: its own
end of the run, and the rows and changes outside the run row. -/
structure Effect where
  run : RunId
  lease : LeaseId
  kind : EffectKind
  deriving DecidableEq

/-- `runIds` lists the inserted runs in order. `effects` collects what completions write to
the investigations, memo, review and outbox tables, in commit order. -/
structure Tables where
  runs : RunId → Option RunRow
  runIds : List RunId
  investigations : InvestigationId → Option InvestigationRow
  ledger : List LedgerRow
  effects : List Effect

def Tables.empty : Tables := ⟨fun _ => none, [], fun _ => none, [], []⟩

/-- What a transaction locks: a row, an entry of the unique index on live runs, or the
advisory lock of the claim. -/
inductive Resource where
  | run (id : RunId)
  | investigation (id : InvestigationId)
  | liveSlot (id : InvestigationId)
  | claimLock
  deriving DecidableEq

/-- Updates carry the whole new row: the row is locked when it is read. -/
inductive Write where
  | setRun (id : RunId) (row : RunRow)
  | insertRun (id : RunId) (row : RunRow)
  | setInvestigation (id : InvestigationId) (row : InvestigationRow)
  | insertLedger (row : LedgerRow)
  | insertEffect (e : Effect)
  | lock (r : Resource)
  deriving DecidableEq

def Write.apply : Write → Tables → Tables
  | .setRun id row, t => { t with runs := Function.update t.runs id (some row) }
  | .insertRun id row, t =>
    { t with runs := Function.update t.runs id (some row), runIds := t.runIds ++ [id] }
  | .setInvestigation id row, t =>
    { t with investigations := Function.update t.investigations id (some row) }
  | .insertLedger row, t => { t with ledger := t.ledger ++ [row] }
  | .insertEffect e, t => { t with effects := t.effects ++ [e] }
  | .lock _, t => t

def Write.locks : Write → List Resource
  | .setRun id _ => [.run id]
  | .insertRun id row => [.run id, .liveSlot row.investigation]
  | .setInvestigation id _ => [.investigation id]
  | .insertLedger _ => []
  | .insertEffect _ => []
  | .lock r => [r]

/-- The committed value behind a resource. -/
def rowOf (r : Resource) (t : Tables) : Option RunRow × Option InvestigationRow :=
  match r with
  | .run id => (t.runs id, none)
  | .investigation id => (none, t.investigations id)
  | _ => (none, none)

theorem Write.frame (w : Write) (r : Resource) (t : Tables) (h : r ∉ w.locks) :
    rowOf r (w.apply t) = rowOf r t := by
  cases w with
  | setRun id row =>
    cases r with
    | run id' =>
      have hne : id' ≠ id := by simpa [Write.locks] using h
      simp [rowOf, Write.apply, Function.update_of_ne hne]
    | _ => rfl
  | insertRun id row =>
    cases r with
    | run id' =>
      have hne : id' ≠ id := by simpa [Write.locks] using h
      simp [rowOf, Write.apply, Function.update_of_ne hne]
    | _ => rfl
  | setInvestigation id row =>
    cases r with
    | investigation id' =>
      have hne : id' ≠ id := by simpa [Write.locks] using h
      simp [rowOf, Write.apply, Function.update_of_ne hne]
    | _ => rfl
  | insertLedger row => rfl
  | insertEffect e => rfl
  | lock r => rfl

/-- The store of one tenant. -/
def store : Store Tables Write Resource (Option RunRow × Option InvestigationRow) where
  apply := Write.apply
  locks := Write.locks
  row := rowOf
  frame := Write.frame

/-! ## Reading the tables -/

/-- A live run of the investigation other than `self`. -/
def otherLive (t : Tables) (c : InvestigationId) (self : Option RunId) : Bool :=
  t.runIds.any fun id => some id != self &&
    match t.runs id with
    | some row => row.investigation == c && row.status.live
    | none => false

/-- The row under a lease: `WHERE id = … AND lease_id = … AND status = 'active'`. -/
def heldRow (t : Tables) (run : RunId) (lease : LeaseId) : Option RunRow :=
  match t.runs run with
  | some row => if row.leaseId = some lease ∧ row.status = .active then some row else none
  | none => none

theorem heldRow_eq_some {t : Tables} {run : RunId} {lease : LeaseId} {row : RunRow} :
    heldRow t run lease = some row ↔
      t.runs run = some row ∧ row.leaseId = some lease ∧ row.status = .active := by
  unfold heldRow
  cases t.runs run with
  | none => simp
  | some row' =>
    constructor
    · intro h
      dsimp only at h
      split_ifs at h with hc
      obtain rfl := Option.some.inj h
      exact ⟨rfl, hc⟩
    · rintro ⟨hr, hc⟩
      obtain rfl := Option.some.inj hr
      exact if_pos hc

def evidenceFlag (t : Tables) (c : InvestigationId) : Bool :=
  match t.investigations c with
  | some row => row.hasNewEvidence
  | none => false

def investigationActive (t : Tables) (c : InvestigationId) : Bool :=
  match t.investigations c with
  | some row => row.status == .active
  | none => false

end SocTalk.Runs
