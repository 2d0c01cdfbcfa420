import SocTalk.Triage.Correlation
import SocTalk.Triage.Screens

/-! One delivered event: coalescing, attachment to a live case, deconfliction, reopening,
the two closes without a run, and promotion. -/
namespace SocTalk.Triage
open Py TriagePolicy

attribute [local instance] timeOrder

/-- Rules by severity; a technique-mapped rule is never obvious noise. -/
def assess (severity : ℤ) (mitre : WireMitre) : Assessment × FloatVal :=
  if 8 ≤ severity then (.real, FloatVal.ofRat (85 / 100))
  else if 5 ≤ severity then (.unclear, FloatVal.ofRat (1 / 2))
  else if 3 ≤ severity then (.likelyFp, FloatVal.ofRat (3 / 4))
  else if hasMitre mitre then (.unclear, FloatVal.ofRat (1 / 2))
  else (.highConfFp, FloatVal.ofRat (95 / 100))

/-- The coalescing signature: rule, assets and a five-minute bucket. -/
def alertSignature (ctx : Context) (ruleId : Option String) (assetIds : List String) (ts : ℤ) :
    String :=
  ctx.sha256 (ruleId.getD "" ++ "|" ++ String.intercalate "," (sortedTexts assetIds) ++ "|" ++
    toString (ts / 300000000))

/-! ## The safety floor at the close sites -/

/-- `auto_close_killed`: by the environment, or by the tenant's flag set to a real `True`. -/
def autoCloseKilled (ctx : Context) (policy : Dict) : Bool :=
  envFlag ctx.env "SOCTALK_AUTO_CLOSE_KILL" || Policy.isTrue policy "auto_close_kill"

def microsPerHour : ℤ := 60 * microsPerMinute

/-- The automatic closes of the tenant inside the rolling window. -/
def countRecentAutoCloses (ctx : Context) (db : DB) (tenant : Tenant) (windowHours : ℤ) : ℕ :=
  db.investigations.countP fun i => i.tenant == tenant && i.status == .autoClosedFp &&
    match i.closedAt with
    | some closed => ctx.now - windowHours * microsPerHour < closed
    | none => false

def volumeCapExceeded (ctx : Context) (db : DB) (tenant : Tenant) (policy : Dict) : M Bool := do
  let cap ← intPolicy policy "auto_close_volume_cap" 500
  if cap ≤ 0 then return false
  let window ← intPolicy policy "auto_close_volume_window_hours" 24
  return cap ≤ countRecentAutoCloses ctx db tenant (max 1 window)

def closeFloorVeto (ctx : Context) (db : DB) (e : Ingest) (keys : List Key) (policy : Dict) :
    M (Option Veto) := do
  if autoCloseKilled ctx policy then return some .killSwitch
  if e.initialIocs ≠ [] then return some .ioc
  if (findCorrelatedInvestigation ctx db e.tenant keys).isSome then return some .activeIncident
  if ← volumeCapExceeded ctx db e.tenant policy then return some .volumeCap
  return none

/-! ## Reservation and coalescing -/

/-- The idempotency gate: a row for a source event seen for the first time. -/
def reserveSourceEvent (db : DB) (e : Ingest) (ts : ℤ) : Option (ℕ × DB) :=
  if db.sourceEvents.any fun s => s.tenant == e.tenant && s.source == e.source &&
      s.sourceEventId == e.sourceEventId then none
  else some (db.nextId,
    { db with
      sourceEvents := db.sourceEvents ++ [{
        id := db.nextId, tenant := e.tenant, source := e.source
        sourceEventId := e.sourceEventId, occurredAt := ts, entities := e.evidence.entities
        decoder := e.evidence.decoder, templateHash := e.evidence.templateHash
        templateVersion := e.evidence.templateVersion }]
      nextId := db.nextId + 1 })

def linkSourceEvent (db : DB) (row alert : ℕ) : DB :=
  { db with sourceEvents := db.sourceEvents.map fun s =>
      if s.id = row then { s with alertId := some alert } else s }

inductive Upsert where
  | fresh (alert : ℕ)
  | merged (alert : ℕ)
  | attached (alert investigation : ℕ)
  deriving DecidableEq

def Upsert.alert : Upsert → ℕ
  | .fresh alert => alert
  | .merged alert => alert
  | .attached alert _ => alert

/-- The latest promoted alert of the signature, with its investigation. -/
def promotedAlert (db : DB) (tenant : Tenant) (signature : String) :
    Option (Alert × Investigation) :=
  (db.alerts.flatMap fun a =>
    if a.tenant = tenant ∧ a.signature = signature ∧ a.status = .promoted then
      (db.investigations.filter fun i => a.investigationId = some i.id).map fun i => (a, i)
    else []).argmax fun p => p.1.lastEventAt

/-- The event becomes one more of an existing alert. -/
def coalesce (db : DB) (e : Ingest) (ts : ℤ) (existing : Alert) : DB :=
  db.updateAlert existing.id fun a =>
    { a with
      eventCount := a.eventCount + 1
      lastEventAt := ts
      sourceEventIds := existing.sourceEventIds ++ [e.sourceEventId]
      assetIds := sortedTexts (existing.assetIds ++ e.assetIds).dedup
      initialIocs := existing.initialIocs ++ e.initialIocs }

def insertAlert (db : DB) (e : Ingest) (ts : ℤ) (signature : String) : DB :=
  let (assessment, confidence) := assess e.severity e.evidence.mitre
  { db with
    alerts := db.alerts ++ [{
      id := db.nextId, tenant := e.tenant, source := e.source, ruleId := e.ruleId
      severity := e.severity, signature := signature, firstEventAt := ts, lastEventAt := ts
      sourceEventIds := [e.sourceEventId], assetIds := e.assetIds
      initialIocs := e.initialIocs, aiAssessment := assessment, aiConfidence := confidence }]
    nextId := db.nextId + 1 }

def upsertAlert (ctx : Context) (db : DB) (e : Ingest) (ts : ℤ) : Upsert × DB :=
  let signature := alertSignature ctx e.ruleId e.assetIds ts
  let isNew := fun a : Alert =>
    a.tenant == e.tenant && a.signature == signature && a.status == .new
  match db.alerts.find? isNew with
  | some existing => (.merged existing.id, coalesce db e ts existing)
  | none =>
    match promotedAlert db e.tenant signature with
    | some (existing, investigation) =>
      -- The reopen check owns the closed false positives.
      if investigation.status = .autoClosedFp then
        (.fresh db.nextId, insertAlert db e ts signature)
      else (.attached existing.id investigation.id, coalesce db e ts existing)
    | none => (.fresh db.nextId, insertAlert db e ts signature)

/-- The human-readable line of a fresh alert. -/
def describeAlert (db : DB) (alert : ℕ) (description : Option String) : DB :=
  match description with
  | none => db
  | some d =>
    if d = "" then db
    else db.updateAlert alert fun a => { a with description := some (prefixOf 1024 d) }

/-! ## Closing, reopening and promoting -/

/-- `timedelta(days=value)` in microseconds. -/
def timedeltaDays (value : Value) : M ℤ := do
  let micros ← match value with
    | .bool b => pure (if b then microsPerDay else 0)
    | .int n => pure (n * microsPerDay)
    | .float (.fin q) => pure (FloatVal.roundHalfEven (q * microsPerDay))
    | .float .nan => throw .valueError
    | .float _ => throw .overflowError
    | _ => throw .typeError
  if 1000000000 * microsPerDay ≤ |micros| then throw .overflowError else return micros

def reopenSignature (ctx : Context) (alert : Alert) : ReopenSignature :=
  { iocFingerprints := (alert.initialIocs.filter fun i => i.type ≠ "" ∧ i.value ≠ "").map
      (iocFingerprint ctx)
    assetIds := alert.assetIds
    ruleIds := (alert.ruleId.filter (· ≠ "")).toList }

/-- A closed investigation for the audit trail, recognisable by later events. -/
def autoCloseAlert (ctx : Context) (db : DB) (tenant : Tenant) (alertId : ℕ)
    (reopenWindowDays : Value) : M (ℕ × DB) := do
  match db.alert? alertId with
  | none => throw .valueError
  | some alert =>
    let window ← timedeltaDays reopenWindowDays
    let closed : Investigation :=
      { id := db.nextId, tenant := tenant, status := .autoClosedFp, severity := alert.severity
        openedAt := alert.firstEventAt, closedAt := some ctx.now
        reopenWindowUntil := some (ctx.now + window)
        reopenSignature := some (Triage.reopenSignature ctx alert) }
    let db := { db with
      investigations := db.investigations ++ [closed]
      nextId := db.nextId + 1 }
    return (closed.id, db.setAlertStatus alertId .autoClosed closed.id)

def promoteAlertToCase (db : DB) (tenant : Tenant) (alertId : ℕ) (settleSeconds : FloatVal) :
    M (ℕ × DB) := do
  match db.alert? alertId with
  | none => throw .valueError
  | some alert =>
    let opened : Investigation :=
      { id := db.nextId, tenant := tenant, status := .active, severity := alert.severity
        openedAt := alert.firstEventAt }
    let db := { db with
      investigations := db.investigations ++ [opened]
      nextId := db.nextId + 1 }
    return (opened.id, (db.setAlertStatus alertId .promoted opened.id).startRun opened.id
      settleSeconds)

/-- An asset, an indicator or the rule of the event is in the signature. -/
def signatureMatches (ctx : Context) (e : Ingest) (sig : ReopenSignature) : Bool :=
  let iocs := (e.initialIocs.filter fun i => i.type ≠ "" ∧ i.value ≠ "").map (iocFingerprint ctx)
  sig.assetIds.any e.assetIds.contains || sig.iocFingerprints.any iocs.contains ||
    (match e.ruleId with
      | some rule => rule ≠ "" && sig.ruleIds.contains rule
      | none => false)

def checkAndReopen (ctx : Context) (db : DB) (e : Ingest) (ts : ℤ) : Option (ℕ × DB) :=
  let reopens := fun i : Investigation => i.tenant == e.tenant && i.status == .autoClosedFp &&
    (match i.reopenWindowUntil with
      | some last => ts < last
      | none => false) &&
    signatureMatches ctx e (i.reopenSignature.getD ⟨[], [], []⟩)
  match db.investigations.find? reopens with
  | none => none
  | some i =>
    let db := db.updateInvestigation i.id fun row =>
      { row with status := .active, closedAt := none, reopenCount := row.reopenCount + 1 }
    -- A live run continues with the reopened case.
    if (db.activeRunForCase i.id).isSome then some (i.id, db)
    else some (i.id, db.startRun i.id (.fin 0))

/-! ## The cascade -/

inductive Outcome where
  | duplicate
  | merged (alert : ℕ)
  | attached (alert investigation : ℕ)
  | correlated (alert investigation : ℕ)
  | declaredTest (alert engagement : ℕ)
  | reopened (alert investigation : ℕ)
  | memoizedClose (alert investigation : ℕ)
  | autoClosed (alert investigation : ℕ)
  | promoted (alert investigation : ℕ) (assessment : Assessment)
  deriving DecidableEq

/-- The outcomes that close an alert with no investigation run. -/
def Outcome.closes : Outcome → Bool
  | .memoizedClose _ _ => true
  | .autoClosed _ _ => true
  | _ => false

/-- What the cascade carries about a fresh alert behind its first screens. -/
structure Candidate where
  alert : ℕ
  ts : ℤ
  policy : Dict
  keys : List Key
  forcePromote : Bool

/-- How the memoized close ends. A denied replay also blocks the rules band. -/
inductive Replay where
  | passed
  | denied
  | closed (investigation : ℕ) (db : DB)

/-- The source-aware routine authorises the replay. -/
def replayAuthorized (ctx : Context) (db : DB) (e : Ingest) (c : Candidate) : Bool :=
  let settings := ShadowSettings.fromEnv ctx.env
  if shouldScore settings c.policy e.evidence.decoder then
    match scoreAlertShadow settings db e c.ts with
    | some routine => routine.wouldClose
    | none => false
  else false

def memoizedClose (ctx : Context) (db : DB) (e : Ingest) (c : Candidate) : M Replay := do
  if !Policy.flag c.policy "verdict_memoization_enabled" || c.forcePromote then return .passed
  match shapeKey (some e.source) e.evidence.decoder e.evidence.templateHash
      e.evidence.templateVersion with
  | none => return .passed
  | some mkey =>
    match lookupMemoizedClose ctx.env ctx.now db.verdictCache (e.tenant, mkey) with
    | none => return .passed
    | some _ =>
      let veto ← closeFloorVeto ctx db e c.keys c.policy
      if veto.isSome then return .passed
      if Policy.flag c.policy "authz_aware_memoization" && !replayAuthorized ctx db e c then
        return .denied
      let (investigation, db) ← autoCloseAlert ctx db e.tenant c.alert
        (Policy.get c.policy "reopen_window_days" (.int 30))
      return .closed investigation
        { db with verdictCache := bumpHit db.verdictCache (e.tenant, mkey) }

/-- The rules band asks for a close. -/
def rulesBandCloses (e : Ingest) (c : Candidate) (denied : Bool) : M Bool := do
  let (assessment, confidence) := assess e.severity e.evidence.mitre
  if assessment ≠ .highConfFp || denied || c.forcePromote then return false
  if !(Policy.get c.policy "auto_close_enabled" (.bool true)).truthy then return false
  Value.compare .ge (.float confidence)
    (Policy.get c.policy "auto_close_threshold" (.float (FloatVal.ofRat (9 / 10))))

def rulesAutoClose (ctx : Context) (db : DB) (e : Ingest) (c : Candidate) (denied : Bool) :
    M (Option (ℕ × DB)) := do
  if ← rulesBandCloses e c denied then
    let veto ← closeFloorVeto ctx db e c.keys c.policy
    if veto.isSome then return none
    let closed ← autoCloseAlert ctx db e.tenant c.alert
      (Policy.get c.policy "reopen_window_days" (.int 30))
    return some closed
  else return none

/-- A high severity is claimed at once. -/
def settleSeconds (e : Ingest) (policy : Dict) : M FloatVal := do
  let bypass ← Value.compare .ge (.int e.severity)
    (Policy.get policy "settle_bypass_severity" (.int 12))
  if bypass then return .fin 0
  else (Policy.get policy "settle_window_seconds" (.int 0)).toFloat

/-- All other bands. -/
def promote (db : DB) (e : Ingest) (c : Candidate) : M (Outcome × DB) := do
  let settle ← settleSeconds e c.policy
  let (investigation, db) ← promoteAlertToCase db e.tenant c.alert settle
  let db := recordKeys db e.tenant c.alert investigation c.keys c.ts
  return (.promoted c.alert investigation (assess e.severity e.evidence.mitre).1, db)

def closeOrPromote (ctx : Context) (db : DB) (e : Ingest) (c : Candidate) : M (Outcome × DB) := do
  match ← memoizedClose ctx db e c with
  | .closed investigation db => return (.memoizedClose c.alert investigation, db)
  | .passed =>
    match ← rulesAutoClose ctx db e c false with
    | some (investigation, db) => return (.autoClosed c.alert investigation, db)
    | none => promote db e c
  | .denied =>
    match ← rulesAutoClose ctx db e c true with
    | some (investigation, db) => return (.autoClosed c.alert investigation, db)
    | none => promote db e c

/-- The reopen check, then the close checks and promotion. -/
def reopenOrDecide (ctx : Context) (db : DB) (e : Ingest) (c : Candidate) : M (Outcome × DB) :=
  match checkAndReopen ctx db e c.ts with
  | some (investigation, db) =>
    return (.reopened c.alert investigation, db.setAlertStatus c.alert .promoted investigation)
  | none => closeOrPromote ctx db e c

/-- Deconfliction: a declared test leaves the queue, a straying tester is forced to a look. -/
def deconflictOrDecide (ctx : Context) (db : DB) (e : Ingest) (row : ℕ) (c : Candidate) :
    M (Outcome × DB) :=
  if Policy.flag c.policy "engagement_deconfliction_enabled" then
    match deconflict ctx db e.tenant c.ts (deconflictionInputs ctx e) with
    | none => reopenOrDecide ctx db e c
    | some d =>
      let db := recordEngagementObservation db e.tenant c.alert row d
      match d.status with
      | .declaredTest => return (.declaredTest c.alert d.engagementId,
          db.updateAlert c.alert fun a => { a with status := .deconflicted })
      | .outOfScope => reopenOrDecide ctx db e { c with forcePromote := true }
  else reopenOrDecide ctx db e c

/-- The alert joins a live case that shares an entity with it. -/
def attachCorrelated (db : DB) (e : Ingest) (c : Candidate) (investigation : ℕ) : DB :=
  (recordKeys (db.setAlertStatus c.alert .promoted investigation) e.tenant c.alert investigation
    c.keys c.ts).flagNewEvidence e.tenant investigation

def triageFresh (ctx : Context) (db : DB) (e : Ingest) (row : ℕ) (c : Candidate) :
    M (Outcome × DB) :=
  if Policy.flag c.policy "entity_correlation_enabled" then
    match findCorrelatedInvestigation ctx db e.tenant c.keys with
    | some investigation =>
      return (.correlated c.alert investigation, attachCorrelated db e c investigation)
    | none => deconflictOrDecide ctx db e row c
  else deconflictOrDecide ctx db e row c

/-- `triage_event`: the outcome and the rows after it, or an exception that rolls all back. -/
def triageEvent (ctx : Context) (db : DB) (e : Ingest) : M (Outcome × DB) :=
  let ts := e.ts.getD ctx.now
  match reserveSourceEvent db e ts with
  | none => return (.duplicate, db)
  | some (row, db) =>
    let (upsert, db) := upsertAlert ctx db e ts
    let db := linkSourceEvent db row upsert.alert
    match upsert with
    | .merged alert => return (.merged alert, db)
    | .attached alert investigation =>
      return (.attached alert investigation, db.flagNewEvidence e.tenant investigation)
    | .fresh alert =>
      let db := describeAlert db alert e.description
      triageFresh ctx db e row
        { alert := alert, ts := ts, policy := effectivePolicy ctx db e.tenant
          keys := extractKeys ctx e, forcePromote := false }

/-- No environment, no policies, no scopes, and a clock that stands still. -/
def quietContext : Context := ⟨fun _ => none, 0, [], id, id, id, id, fun _ _ => false⟩

def bruteForce (id : String) (ts : ℤ) : Ingest :=
  ⟨0, "wazuh", some "5710", 10, ["h1"], [], id, some ts, none, {}⟩

end SocTalk.Triage
