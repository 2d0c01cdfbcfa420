import SocTalk.Deliveries.Store

/-! The triage of a delivered batch, one transaction, statement by statement. An exception
rolls the transaction back. -/
namespace SocTalk.Deliveries
open Py ReadCommitted Triage

/-- An event of a batch, with what its triage reads besides the database. -/
structure Delivery where
  ctx : Context
  event : Ingest

abbrev Batch := List Delivery

abbrev Program := Prog DB Write Unit Unit Resource

def select (next : View DB Resource → Program) : Program := .stmt () (fun _ => []) next

def execute (writes : List Write) (next : Program) : Program :=
  .stmt () (fun _ => writes) fun _ => next

/-- Python code between two statements. -/
def attempt {α : Type} (x : M α) (next : α → Program) : Program :=
  match x with
  | .ok a => next a
  | .error _ => .rollback

/-- The id minted for the rows of one event, fresh in every table. -/
def uuid (session n : ℕ) : ℕ := Nat.pair session n

def sourceEventRow (id : ℕ) (e : Ingest) (ts : ℤ) : SourceEvent :=
  { id := id, tenant := e.tenant, source := e.source, sourceEventId := e.sourceEventId
    occurredAt := ts, entities := e.evidence.entities, decoder := e.evidence.decoder
    templateHash := e.evidence.templateHash, templateVersion := e.evidence.templateVersion }

/-- The row of a fresh alert. -/
def alertRow (id : ℕ) (e : Ingest) (ts : ℤ) (signature : String) : Alert :=
  { id := id, tenant := e.tenant, source := e.source, ruleId := e.ruleId, severity := e.severity
    signature := signature, firstEventAt := ts, lastEventAt := ts
    sourceEventIds := [e.sourceEventId], assetIds := e.assetIds, initialIocs := e.initialIocs
    aiAssessment := (assess e.severity e.evidence.mitre).1
    aiConfidence := (assess e.severity e.evidence.mitre).2 }

/-! ## The cascade of a fresh alert -/

/-- What the cascade carries: the event, its row, its alert, and the minted id. -/
structure Fresh where
  ctx : Context
  event : Ingest
  uuid : ℕ
  alert : AlertRef
  candidate : Candidate

section

variable (f : Fresh) (next : Program)

/-- The follow-up flag, where a run is live. -/
def flagNewEvidence (tenant : Tenant) (investigation : ℕ) (next : Program) : Program :=
  select fun v =>
  if (v.db.activeRunForCase investigation).isSome then
    execute [.updateInvestigation investigation (.flagged tenant)] next
  else next

def recordKeys (investigation : ℕ) (next : Program) : Program :=
  execute (f.candidate.keys.map
    (.recordKey f.event.tenant f.alert.id investigation f.candidate.ts)) next

/-- `start_run` under the unique index on live runs. -/
def startRun (investigation : ℕ) (settleSeconds : FloatVal) (next : Program) : Program :=
  .stmt ()
    (fun v => if (v.db.activeRunForCase investigation).isSome then []
      else [.insertRun ⟨f.uuid, investigation, true, settleSeconds⟩])
    fun v => if (v.db.activeRunForCase investigation).isSome then .rollback else next

def attachCorrelated (investigation : ℕ) : Program :=
  execute [.updateAlert f.alert (.settled .promoted investigation)] <|
  recordKeys f investigation <|
  flagNewEvidence f.event.tenant investigation next

/-- `auto_close_alert`. -/
def autoCloseAlert (reopenWindowDays : Value) (next : Program) : Program :=
  select fun v =>
  match v.db.alert? f.alert.id with
  | none => .rollback
  | some alert =>
    attempt (timedeltaDays reopenWindowDays) fun window =>
    execute [.insertInvestigation
      { id := f.uuid, tenant := f.event.tenant, status := .autoClosedFp
        severity := alert.severity, openedAt := alert.firstEventAt
        closedAt := some f.ctx.now, reopenWindowUntil := some (f.ctx.now + window)
        reopenSignature := some (Triage.reopenSignature f.ctx alert) }] <|
    execute [.updateAlert f.alert (.settled .autoClosed f.uuid)] next

/-- `promote_alert_to_case`, with its keys. -/
def promote : Program :=
  attempt (settleSeconds f.event f.candidate.policy) fun settle =>
  select fun v =>
  match v.db.alert? f.alert.id with
  | none => .rollback
  | some alert =>
    execute [.insertInvestigation
      { id := f.uuid, tenant := f.event.tenant, status := .active, severity := alert.severity
        openedAt := alert.firstEventAt }] <|
    execute [.updateAlert f.alert (.settled .promoted f.uuid)] <|
    startRun f f.uuid settle <|
    recordKeys f f.uuid next

def rulesAutoClose (denied : Bool) : Program :=
  attempt (rulesBandCloses f.event f.candidate denied) fun closes =>
  if closes then
    select fun v =>
    attempt (closeFloorVeto f.ctx v.db f.event f.candidate.keys f.candidate.policy) fun veto =>
    if veto.isSome then promote f next
    else autoCloseAlert f (Policy.get f.candidate.policy "reopen_window_days" (.int 30)) next
  else promote f next

/-- The replay of a cached close, under the routine that was scored before it. -/
def memoizedClose (authorized : Bool) : Program :=
  if !Policy.flag f.candidate.policy "verdict_memoization_enabled" || f.candidate.forcePromote then
    rulesAutoClose f next false
  else
    match shapeKey (some f.event.source) f.event.evidence.decoder f.event.evidence.templateHash
        f.event.evidence.templateVersion with
    | none => rulesAutoClose f next false
    | some mkey =>
      select fun v =>
      match lookupMemoizedClose f.ctx.env f.ctx.now v.db.verdictCache (f.event.tenant, mkey) with
      | none => rulesAutoClose f next false
      | some _ =>
        select fun v =>
        attempt (closeFloorVeto f.ctx v.db f.event f.candidate.keys f.candidate.policy) fun veto =>
        if veto.isSome then rulesAutoClose f next false
        else if Policy.flag f.candidate.policy "authz_aware_memoization" && !authorized then
          rulesAutoClose f next true
        else
          autoCloseAlert f (Policy.get f.candidate.policy "reopen_window_days" (.int 30)) <|
          execute [.bumpHit (f.event.tenant, mkey)] next

/-- The closed investigation that the event reopens. -/
def reopenable (ctx : Context) (db : DB) (e : Ingest) (ts : ℤ) : Option ℕ :=
  (db.investigations.find? fun i => i.tenant == e.tenant && i.status == .autoClosedFp &&
    (match i.reopenWindowUntil with
      | some last => ts < last
      | none => false) &&
    signatureMatches ctx e (i.reopenSignature.getD ⟨[], [], []⟩)).map (·.id)

/-- The reopen check, then the routine score, the close checks and promotion. -/
def reopenOrDecide : Program :=
  select fun v =>
  match reopenable f.ctx v.db f.event f.candidate.ts with
  | some investigation =>
    let attach := execute [.updateAlert f.alert (.settled .promoted investigation)] next
    execute [.updateInvestigation investigation .reopened] <|
    select fun v =>
    if (v.db.activeRunForCase investigation).isSome then attach
    else startRun f investigation (.fin 0) attach
  | none => select fun v => memoizedClose f next (replayAuthorized f.ctx v.db f.event f.candidate)

def deconflictOrDecide : Program :=
  if Policy.flag f.candidate.policy "engagement_deconfliction_enabled" then
    select fun v =>
    match deconflict f.ctx v.db f.event.tenant f.candidate.ts
        (deconflictionInputs f.ctx f.event) with
    | none => reopenOrDecide f next
    | some d =>
      execute [.observe f.event.tenant f.alert.id f.uuid d] <|
      match d.status with
      | .declaredTest => execute [.updateAlert f.alert .deconflicted] next
      | .outOfScope =>
        reopenOrDecide { f with candidate := { f.candidate with forcePromote := true } } next
  else reopenOrDecide f next

def triageFresh : Program :=
  if Policy.flag f.candidate.policy "entity_correlation_enabled" then
    select fun v =>
    match findCorrelatedInvestigation f.ctx v.db f.event.tenant f.candidate.keys with
    | some investigation => attachCorrelated f next investigation
    | none => deconflictOrDecide f next
  else deconflictOrDecide f next

end

/-! ## One event -/

/-- The human-readable line of a fresh alert. -/
def describe (alert : AlertRef) (description : Option String) (next : Program) : Program :=
  match description with
  | none => next
  | some d =>
    if d = "" then next else execute [.updateAlert alert (.described (prefixOf 1024 d))] next

/-- A coalesced event: the update, and the link of its row. -/
def coalesce (e : Ingest) (ts : ℤ) (row : ℕ) (existing : Alert) (next : Program) : Program :=
  execute [.updateAlert (refOf existing) (.coalesced existing e ts)] <|
  execute [.link row existing.id] next

/-- A fresh alert: the insert, the link, the line and the cascade. -/
def triageNew (d : Delivery) (ts : ℤ) (id : ℕ) (signature : String) (next : Program) : Program :=
  let alert := alertRow id d.event ts signature
  execute [.insertAlert alert] <|
  execute [.link id id] <|
  describe (refOf alert) d.event.description <|
  select fun v =>
  triageFresh
    { ctx := d.ctx, event := d.event, uuid := id, alert := refOf alert
      candidate := { alert := id, ts := ts, policy := effectivePolicy d.ctx v.db d.event.tenant
                     keys := extractKeys d.ctx d.event, forcePromote := false } } next

/-- An open alert of the signature. -/
def openAlert (db : DB) (tenant : Tenant) (signature : String) : Option Alert :=
  db.alerts.find? fun a => a.tenant == tenant && a.signature == signature && a.status == .new

/-- The event joins the open alert of its signature or a promoted one, or opens an alert. -/
def joinOrOpen (d : Delivery) (ts : ℤ) (id : ℕ) (signature : String) (next : Program) : Program :=
  select fun v =>
  match openAlert v.db d.event.tenant signature with
  | some existing => coalesce d.event ts id existing next
  | none =>
    select fun v =>
    match promotedAlert v.db d.event.tenant signature with
    | some (existing, investigation) =>
      -- The reopen check owns the closed false positives.
      if investigation.status = .autoClosedFp then triageNew d ts id signature next
      else
        coalesce d.event ts id existing <|
        flagNewEvidence d.event.tenant investigation.id next
    | none => triageNew d ts id signature next

/-- Coalescing, under the advisory lock of the signature. -/
def upsertAlert (d : Delivery) (ts : ℤ) (id : ℕ) (next : Program) : Program :=
  let signature := alertSignature d.ctx d.event.ruleId d.event.assetIds ts
  execute [.lock (.signature d.event.tenant signature)] <|
  joinOrOpen d ts id signature next

/-- `triage_event`: the idempotency gate, then the triage of an event seen for the first time. -/
def triageEvent (session n : ℕ) (d : Delivery) (next : Program) : Program :=
  let ts := d.event.ts.getD d.ctx.now
  let id := uuid session n
  .stmt ()
    (fun v => if hasEvent v.db (ingestKey d.event) then []
      else [.reserve (sourceEventRow id d.event ts)])
    fun v =>
      if hasEvent v.db (ingestKey d.event) then next
      else upsertAlert d ts id next

/-- `ingest_events`: the events of a batch in turn, in one transaction. -/
def ingestEvents (session : ℕ) : ℕ → Batch → Program
  | _, [] => .commit ()
  | n, d :: rest => triageEvent session n d (ingestEvents session (n + 1) rest)

def serve (session : ℕ) (batch : Batch) : Program := ingestEvents session 0 batch

abbrev System := Sys DB Write Unit Unit Resource Batch

/-- No condition on the steps. -/
def always (_ : Unit) (_ : View DB Resource) : Prop := True

end SocTalk.Deliveries
