import Mathlib.Data.Nat.Pairing
import SocTalk.Lib.ReadCommitted
import SocTalk.Triage.Event

/-! Delivered batches of source events as transactions: the triage of each event statement by
statement, on the tables of all tenants and under the locks it takes. -/
namespace SocTalk.Deliveries
open Py ReadCommitted Triage

/-- `uq_source_events_idempotency`. -/
structure EventKey where
  tenant : Tenant
  source : String
  sourceEventId : String
  deriving DecidableEq

def keyOf (s : SourceEvent) : EventKey := ⟨s.tenant, s.source, s.sourceEventId⟩

def ingestKey (e : Ingest) : EventKey := ⟨e.tenant, e.source, e.sourceEventId⟩

/-- The key is in the unique index. -/
def hasEvent (db : DB) (key : EventKey) : Bool := db.sourceEvents.any fun s => keyOf s == key

def ofSignature (tenant : Tenant) (signature : String) (a : Alert) : Bool :=
  a.tenant == tenant && a.signature == signature

/-- What a transaction locks: an entry of the unique index on events, the advisory lock of a
signature, an investigation row, or an entry of the unique index on live runs. -/
inductive Resource where
  | event (key : EventKey)
  | signature (tenant : Tenant) (signature : String)
  | investigation (id : ℕ)
  | liveRun (investigation : ℕ)
  deriving DecidableEq

/-! ## The writes -/

/-- An alert row; its tenant and signature never change. -/
structure AlertRef where
  tenant : Tenant
  signature : String
  id : ℕ
  deriving DecidableEq

def refOf (a : Alert) : AlertRef := ⟨a.tenant, a.signature, a.id⟩

def AlertRef.names (ref : AlertRef) (a : Alert) : Bool :=
  a.id == ref.id && ofSignature ref.tenant ref.signature a

inductive AlertChange where
  /-- One more event; the lists are those that were read, with the event's. -/
  | coalesced (existing : Alert) (e : Ingest) (ts : ℤ)
  | described (text : String)
  | settled (status : AlertStatus) (investigation : ℕ)
  | deconflicted

def AlertChange.apply (a : Alert) : AlertChange → Alert
  | .coalesced existing e ts =>
    { a with
      eventCount := a.eventCount + 1
      lastEventAt := ts
      sourceEventIds := existing.sourceEventIds ++ [e.sourceEventId]
      assetIds := sortedTexts (existing.assetIds ++ e.assetIds).dedup
      initialIocs := existing.initialIocs ++ e.initialIocs }
  | .described text => { a with description := some text }
  | .settled status investigation =>
    { a with status := status, investigationId := some investigation }
  | .deconflicted => { a with status := .deconflicted }

inductive InvestigationChange where
  | flagged (tenant : Tenant)
  | reopened

def InvestigationChange.apply (i : Investigation) : InvestigationChange → Investigation
  | .flagged tenant => if i.tenant = tenant then { i with hasNewEvidence := true } else i
  | .reopened =>
    { i with status := .active, closedAt := none, reopenCount := i.reopenCount + 1 }

inductive Write where
  | reserve (row : SourceEvent)
  | lock (r : Resource)
  | insertAlert (a : Alert)
  | updateAlert (ref : AlertRef) (change : AlertChange)
  | link (row alert : ℕ)
  | insertInvestigation (i : Investigation)
  | updateInvestigation (id : ℕ) (change : InvestigationChange)
  | insertRun (r : Triage.Run)
  | recordKey (tenant : Tenant) (alert investigation : ℕ) (occurredAt : ℤ) (key : Key)
  | bumpHit (key : Tenant × String)
  | observe (tenant : Tenant) (alert row : ℕ) (d : Deconfliction)

def Write.apply : Write → DB → DB
  | .reserve row, db => { db with sourceEvents := db.sourceEvents ++ [row] }
  | .lock _, db => db
  | .insertAlert a, db => { db with alerts := db.alerts ++ [a] }
  | .updateAlert ref change, db =>
    { db with alerts := db.alerts.map fun a => if ref.names a then change.apply a else a }
  | .link row alert, db => linkSourceEvent db row alert
  | .insertInvestigation i, db => { db with investigations := db.investigations ++ [i] }
  | .updateInvestigation id change, db => db.updateInvestigation id change.apply
  | .insertRun r, db => { db with runs := db.runs ++ [r] }
  | .recordKey tenant alert investigation occurredAt key, db =>
    Triage.recordKey tenant alert investigation occurredAt db key
  | .bumpHit key, db => { db with verdictCache := Triage.bumpHit db.verdictCache key }
  | .observe tenant alert row d, db => recordEngagementObservation db tenant alert row d

/-- An alert is written under its signature's advisory lock only. -/
def Write.locks : Write → List Resource
  | .reserve row => [.event (keyOf row)]
  | .lock r => [r]
  | .insertAlert a => [.signature a.tenant a.signature]
  | .updateAlert ref _ => [.signature ref.tenant ref.signature]
  | .updateInvestigation id _ => [.investigation id]
  | .insertRun r => [.liveRun r.investigationId]
  | _ => []

/-- Behind an index entry whether it is there, behind a signature's lock its alerts. -/
def rowOf : Resource → DB → Bool × List Alert
  | .event key, db => (hasEvent db key, [])
  | .signature tenant signature, db => (false, db.alerts.filter (ofSignature tenant signature))
  | _, _ => (false, [])

/-- Writes that leave alerts and source events as they are. -/
def Write.Beside : Write → Prop
  | .lock _ => True
  | .insertInvestigation _ => True
  | .updateInvestigation _ _ => True
  | .insertRun _ => True
  | .recordKey _ _ _ _ _ => True
  | .bumpHit _ => True
  | .observe _ _ _ _ => True
  | _ => False

theorem Write.Beside.same {w : Write} (h : w.Beside) (db : DB) :
    (w.apply db).alerts = db.alerts ∧ (w.apply db).sourceEvents = db.sourceEvents := by
  cases w with
  | observe tenant alert row d =>
    show (recordEngagementObservation db tenant alert row d).alerts = _ ∧
      (recordEngagementObservation db tenant alert row d).sourceEvents = _
    unfold recordEngagementObservation
    split
    · exact ⟨rfl, rfl⟩
    · exact ⟨rfl, rfl⟩
  | reserve => exact h.elim
  | insertAlert => exact h.elim
  | updateAlert => exact h.elim
  | link => exact h.elim
  | _ => exact ⟨rfl, rfl⟩

@[simp] theorem AlertChange.id_apply (c : AlertChange) (a : Alert) : (c.apply a).id = a.id := by
  cases c <;> rfl

@[simp] theorem AlertChange.tenant_apply (c : AlertChange) (a : Alert) :
    (c.apply a).tenant = a.tenant := by
  cases c <;> rfl

@[simp] theorem AlertChange.signature_apply (c : AlertChange) (a : Alert) :
    (c.apply a).signature = a.signature := by
  cases c <;> rfl

theorem hasEvent_link (db : DB) (row alert : ℕ) (key : EventKey) :
    hasEvent (linkSourceEvent db row alert) key = hasEvent db key := by
  have hkey (s : SourceEvent) :
      keyOf (if s.id = row then { s with alertId := some alert } else s) = keyOf s := by
    split <;> rfl
  unfold hasEvent linkSourceEvent
  rw [List.any_map]
  congr
  funext s
  simp only [Function.comp, hkey]

/-- What a write does to the rows behind a resource, by those rows. -/
def Write.onRow (w : Write) (r : Resource) (row : Bool × List Alert) : Bool × List Alert :=
  match r with
  | .event key =>
    match w with
    | .reserve s => (row.1 || keyOf s == key, [])
    | _ => row
  | .signature tenant signature =>
    match w with
    | .insertAlert a => if ofSignature tenant signature a then (false, row.2 ++ [a]) else row
    | .updateAlert ref change =>
      (false, row.2.map fun a => if ref.names a then change.apply a else a)
    | _ => row
  | _ => row

theorem filter_updateAlert (ref : AlertRef) (change : AlertChange) (tenant : Tenant)
    (signature : String) (alerts : List Alert) :
    (alerts.map fun a => if ref.names a then change.apply a else a).filter
      (ofSignature tenant signature) =
      (alerts.filter (ofSignature tenant signature)).map
        fun a => if ref.names a then change.apply a else a := by
  rw [List.filter_map]
  congr 1
  apply List.filter_congr
  intro a _
  unfold ofSignature
  simp only [Function.comp]
  split <;> simp

theorem rowOf_apply (w : Write) (r : Resource) (db : DB) :
    rowOf r (w.apply db) = w.onRow r (rowOf r db) := by
  cases r with
  | event key =>
    cases w with
    | reserve s => simp [rowOf, Write.onRow, Write.apply, hasEvent]
    | link row alert => simp [rowOf, Write.onRow, Write.apply, hasEvent_link]
    | observe tenant alert row d =>
      have hsame := (show (Write.observe tenant alert row d).Beside from trivial).same db
      simp [rowOf, Write.onRow, hasEvent, hsame.2]
    | _ => rfl
  | signature tenant signature =>
    cases w with
    | insertAlert a =>
      simp only [rowOf, Write.onRow, Write.apply, List.filter_append, List.filter_singleton]
      cases ofSignature tenant signature a <;> simp
    | updateAlert ref change =>
      simp only [rowOf, Write.onRow, Write.apply, filter_updateAlert]
    | observe t alert row d =>
      have hsame := (show (Write.observe t alert row d).Beside from trivial).same db
      simp [rowOf, Write.onRow, hsame.1]
    | _ => rfl
  | _ => rfl

theorem Write.frame (w : Write) (r : Resource) (db : DB) (h : r ∉ w.locks) :
    rowOf r (w.apply db) = rowOf r db := by
  rw [rowOf_apply]
  cases r with
  | event key =>
    cases w with
    | reserve s =>
      have hne : keyOf s ≠ key := by
        intro heq
        exact h (by simp [Write.locks, heq])
      simp [Write.onRow, rowOf, hne]
    | _ => rfl
  | signature tenant signature =>
    cases w with
    | insertAlert a =>
      have hne : ofSignature tenant signature a = false := by
        by_contra hsame
        have hsame : a.tenant = tenant ∧ a.signature = signature := by
          simpa [ofSignature] using hsame
        exact h (by simp [Write.locks, hsame])
      simp [Write.onRow, hne]
    | updateAlert ref change =>
      have hnone : ∀ a ∈ db.alerts.filter (ofSignature tenant signature), ref.names a = false := by
        intro a ha
        by_contra hnamed
        have hsig := (List.mem_filter.mp ha).2
        simp only [AlertRef.names, ofSignature, Bool.and_eq_true, beq_iff_eq,
          Bool.not_eq_false] at hnamed hsig
        exact h (by simp [Write.locks, ← hnamed.2.1, ← hnamed.2.2, hsig])
      have hmap : (db.alerts.filter (ofSignature tenant signature)).map
          (fun a => if ref.names a then change.apply a else a) =
          db.alerts.filter (ofSignature tenant signature) := by
        refine (List.map_congr_left fun a ha => ?_).trans (List.map_id' _)
        rw [hnone a ha]
        rfl
      simp [Write.onRow, rowOf, hmap]
    | _ => rfl
  | _ => rfl

def store : Store DB Write Resource (Bool × List Alert) where
  apply := Write.apply
  locks := Write.locks
  row := rowOf
  frame := Write.frame

end SocTalk.Deliveries
