import Mathlib.Data.Nat.Pairing
import SocTalk.Lib.Exclusion
import SocTalk.Triage.Event

/-! The two planes that close an investigation as a false positive on their own, statement by
statement: ingest, which files a closed one for an alert it dismisses, and the completion of a
worker's run. Both count the closes of the rolling window under the tenant's advisory lock,
which the transaction holds until it ends. -/
namespace SocTalk.Triage.VolumeCap
open Py ReadCommitted TriagePolicy

/-! ## Rows and locks -/

/-- The advisory lock `auto_close_volume` of the tenant, and the row locks. -/
inductive Resource where
  | volume
  | investigation (id : ℕ)
  deriving DecidableEq

/-- What an `UPDATE … WHERE status = 'active'` sets. -/
inductive Change where
  | closed (now : ℤ) (signature : ReopenSignature) (reopenUntil : ℤ)
  | escalated

def Change.apply (i : Investigation) : Change → Investigation
  | .closed now signature reopenUntil =>
    { i with
      status := .autoClosedFp, closedAt := some now, reopenSignature := some signature
      reopenWindowUntil := some reopenUntil }
  | .escalated => { i with severity := max i.severity 12 }

/-- The active row of an investigation of the tenant. -/
def isActive (tenant : Tenant) (id : ℕ) (i : Investigation) : Bool :=
  i.id == id && i.tenant == tenant && i.status == .active

inductive Write where
  | lock (r : Resource)
  | insertInvestigation (i : Investigation)
  | updateActive (tenant : Tenant) (id : ℕ) (change : Change)

def Write.apply : Write → DB → DB
  | .lock _, db => db
  | .insertInvestigation i, db => { db with investigations := db.investigations ++ [i] }
  | .updateActive tenant id change, db =>
    { db with
      investigations := db.investigations.map fun i =>
        if isActive tenant id i then change.apply i else i }

def Write.locks : Write → List Resource
  | .lock r => [r]
  | .insertInvestigation i => [.investigation i.id]
  | .updateActive _ id _ => [.investigation id]

/-- No lock names rows that only its holder may change. -/
def store : Store DB Write Resource Unit where
  apply := Write.apply
  locks := Write.locks
  row _ _ := ()
  frame _ _ _ _ := rfl

abbrev Program := Prog DB Write Unit Unit Resource

def select (next : View DB Resource → Program) : Program := .stmt () (fun _ => []) next

def execute (writes : List Write) (next : Program) : Program :=
  .stmt () (fun _ => writes) fun _ => next

/-- Python code between two statements. -/
def attempt {α : Type} (x : M α) (next : α → Program) : Program :=
  match x with
  | .ok a => next a
  | .error _ => .rollback

/-- The id is in the primary key's index. -/
def known (db : DB) (id : ℕ) : Bool := db.investigations.any fun i => i.id == id

/-- An insert under the primary key. -/
def insert (row : Investigation) (next : Program) : Program :=
  .stmt () (fun v => if known v.db row.id then [] else [.insertInvestigation row])
    fun v => if known v.db row.id then .rollback else next

/-- An update locks the row that it finds. -/
def update (tenant : Tenant) (id : ℕ) (change : Change) (next : Program) : Program :=
  .stmt ()
    (fun v => if v.db.investigations.any (isActive tenant id) then [.updateActive tenant id change]
      else [])
    fun _ => next

/-! ## The requests -/

/-- A policy of the tenant with the cap in force. -/
structure CappedPolicy where
  policy : Dict
  inForce : ∃ cap, intPolicy policy "auto_close_volume_cap" 500 = .ok cap ∧ 0 < cap

/-- A fresh alert at the close sites, with what is decided on it beside the cap. -/
structure Arrival where
  policy : CappedPolicy
  severity : ℤ
  firstEventAt : ℤ
  hasIocs : Bool := false
  /-- A cached close of the shape is looked up and found. -/
  memoized : Bool := false
  /-- The routine does not authorise the replay of it. -/
  replayDenied : Bool := false
  /-- The rules band asks for a close. -/
  rulesClose : Bool := false
  /-- An active investigation shares a key with the alert: at the replay, and at the band. -/
  activeAtReplay : Bool := false
  activeAtRules : Bool := false
  signature : ReopenSignature
  reopenWindow : ℤ

/-- An event of a batch: it ends before the close sites and leaves the status of every
investigation, or its alert reaches them. Reopening an investigation is neither. -/
inductive Delivery where
  | elsewhere
  | fresh (a : Arrival)

/-- A worker's `close_fp` for a run of the investigation. -/
structure Completion where
  investigation : ℕ
  policy : CappedPolicy
  /-- Another active investigation shares a key with it. -/
  activeIncident : Bool := false
  signature : ReopenSignature
  reopenUntil : ℤ

/-- The context carries the transaction's timestamp. -/
inductive Request where
  | ingest (ctx : Context) (batch : List Delivery)
  | complete (ctx : Context) (c : Completion)

def Request.ctx : Request → Context
  | .ingest ctx _ => ctx
  | .complete ctx _ => ctx

/-- The id minted for the investigation of one event. -/
def uuid (session n : ℕ) : ℕ := Nat.pair session n

/-! ## The programs -/

section

variable (tenant : Tenant) (ctx : Context)

/-- `volume_cap_exceeded`: the lock in one statement, the count in the next. -/
def volumeCapExceeded (policy : Dict) (next : Bool → Program) : Program :=
  attempt (intPolicy policy "auto_close_volume_cap" 500) fun cap =>
  if cap ≤ 0 then next false
  else
    attempt (intPolicy policy "auto_close_volume_window_hours" 24) fun window =>
    execute [.lock .volume] <|
    select fun v =>
    next (decide (cap ≤ (countRecentAutoCloses ctx v.db tenant (max 1 window) : ℤ)))

/-- `_close_floor_veto`. -/
def closeFloorVeto (a : Arrival) (activeIncident : Bool) (next : Option Veto → Program) :
    Program :=
  if autoCloseKilled ctx a.policy.policy then next (some .killSwitch)
  else if a.hasIocs then next (some .ioc)
  else
    select fun _ =>
    if activeIncident then next (some .activeIncident)
    else
      volumeCapExceeded tenant ctx a.policy.policy fun exceeded =>
      next (if exceeded then some .volumeCap else none)

/-- `auto_close_alert`. -/
def autoCloseAlert (id : ℕ) (a : Arrival) (next : Program) : Program :=
  insert
    { id := id, tenant := tenant, status := .autoClosedFp, severity := a.severity
      openedAt := a.firstEventAt, closedAt := some ctx.now
      reopenWindowUntil := some (ctx.now + a.reopenWindow), reopenSignature := some a.signature }
    next

/-- `promote_alert_to_case`. -/
def promote (id : ℕ) (a : Arrival) (next : Program) : Program :=
  insert { id := id, tenant := tenant, status := .active, severity := a.severity
           openedAt := a.firstEventAt } next

def rulesAutoClose (id : ℕ) (a : Arrival) (denied : Bool) (next : Program) : Program :=
  if a.rulesClose && !denied then
    closeFloorVeto tenant ctx a a.activeAtRules fun veto =>
    if veto.isSome then promote tenant id a next else autoCloseAlert tenant ctx id a next
  else promote tenant id a next

def memoizedClose (id : ℕ) (a : Arrival) (next : Program) : Program :=
  if a.memoized then
    closeFloorVeto tenant ctx a a.activeAtReplay fun veto =>
    if veto.isSome then rulesAutoClose tenant ctx id a false next
    else if a.replayDenied then rulesAutoClose tenant ctx id a true next
    else autoCloseAlert tenant ctx id a next
  else rulesAutoClose tenant ctx id a false next

/-- `ingest_events`: the events of a batch in turn, in one transaction. -/
def ingestEvents (session : ℕ) : ℕ → List Delivery → Program
  | _, [] => .commit ()
  | n, .elsewhere :: rest => ingestEvents session (n + 1) rest
  | n, .fresh a :: rest =>
    memoizedClose tenant ctx (uuid session n) a (ingestEvents session (n + 1) rest)

/-- `close_fp_floor_veto`: an investigation that is not active is left to the guard of the
update, uncounted. -/
def closeFpFloorVeto (c : Completion) (next : Option Veto → Program) : Program :=
  select fun v =>
  match v.db.investigations.filter fun i => i.id == c.investigation && i.tenant == tenant with
  | [] => next none
  | [i] =>
    if i.status ≠ .active then next none
    else if autoCloseKilled ctx c.policy.policy then next (some .killSwitch)
    else
      select fun _ =>
      if c.activeIncident then next (some .activeIncident)
      else
        volumeCapExceeded tenant ctx c.policy.policy fun exceeded =>
        next (if exceeded then some .volumeCap else none)
  | _ => .rollback

/-- `complete_run` for a reported `close_fp`: a vetoed close is escalated. The run refers to an
investigation that exists. -/
def completeRun (c : Completion) : Program :=
  select fun v =>
  if known v.db c.investigation then
    closeFpFloorVeto tenant ctx c fun veto =>
    update tenant c.investigation
      (if veto.isSome then .escalated else .closed ctx.now c.signature c.reopenUntil) <|
    .commit ()
  else .rollback

end

def serve (tenant : Tenant) (session : ℕ) : Request → Program
  | .ingest ctx batch => ingestEvents tenant ctx session 0 batch
  | .complete ctx c => completeRun tenant ctx c

abbrev System := Sys DB Write Unit Unit Resource Request

/-- No condition on the steps. -/
def always (_ : Unit) (_ : View DB Resource) : Prop := True

end SocTalk.Triage.VolumeCap
