import Mathlib.Data.List.Sort
import SocTalk.Triage.Memo

/-! What the adapter delivers about one alert, and the rows its triage reads and writes. -/
namespace SocTalk.Triage
open Py

/-! ## The event -/

structure IngestedIOC where
  type : String
  value : String
  deriving DecidableEq

/-- A typed entity. The wire restricts the type; the code reads any. -/
structure WireEntity where
  type : String
  value : String
  role : Option String := none
  deriving DecidableEq

structure WireMitre where
  ids : List String := []
  tactics : List String := []
  techniques : List String := []
  deriving DecidableEq

structure Evidence where
  entities : List WireEntity := []
  mitre : WireMitre := {}
  decoder : Option String := none
  templateHash : Option String := none
  templateVersion : Option String := none
  deriving DecidableEq

/-- The arguments of one call of `triage_event`. Times are microseconds. -/
structure Ingest where
  tenant : Tenant
  source : String
  ruleId : Option String
  severity : ℤ
  assetIds : List String
  initialIocs : List IngestedIOC
  sourceEventId : String
  ts : Option ℤ := none
  description : Option String := none
  evidence : Evidence := {}
  deriving DecidableEq

/-! ## The rows -/

structure SourceEvent where
  id : ℕ
  tenant : Tenant
  source : String
  sourceEventId : String
  occurredAt : ℤ
  entities : List WireEntity
  decoder : Option String
  templateHash : Option String
  templateVersion : Option String
  alertId : Option ℕ := none
  deriving DecidableEq

inductive Assessment where
  | real
  | unclear
  | likelyFp
  | highConfFp
  deriving DecidableEq

/-- A text column without a constraint: the values triage tells apart, and any other. -/
inductive AlertStatus where
  | new
  | promoted
  | autoClosed
  | deconflicted
  | other (text : String)
  deriving DecidableEq

structure Alert where
  id : ℕ
  tenant : Tenant
  source : String
  ruleId : Option String
  severity : ℤ
  signature : String
  firstEventAt : ℤ
  lastEventAt : ℤ
  eventCount : ℕ := 1
  sourceEventIds : List String
  assetIds : List String
  initialIocs : List IngestedIOC
  aiAssessment : Assessment
  aiConfidence : FloatVal
  status : AlertStatus := .new
  investigationId : Option ℕ := none
  description : Option String := none
  deriving DecidableEq

/-- Also a text column without a constraint. -/
inductive InvestigationStatus where
  | active
  | autoClosedFp
  | other (text : String)
  deriving DecidableEq

/-- What a closed false positive can be recognised by later. -/
structure ReopenSignature where
  iocFingerprints : List String
  assetIds : List String
  ruleIds : List String
  deriving DecidableEq

structure Investigation where
  id : ℕ
  tenant : Tenant
  status : InvestigationStatus
  severity : ℤ
  openedAt : ℤ
  closedAt : Option ℤ := none
  reopenWindowUntil : Option ℤ := none
  reopenSignature : Option ReopenSignature := none
  reopenCount : ℕ := 0
  hasNewEvidence : Bool := false
  deriving DecidableEq

inductive Strength where
  | strong
  | conditional
  | weak
  deriving DecidableEq

/-- A typed correlation key. -/
structure Key where
  keyType : String
  keyValue : String
  strength : Strength
  deriving DecidableEq

/-- A row of the projected index `alert_entity_keys`. -/
structure EntityKey extends Key where
  tenant : Tenant
  alertId : ℕ
  investigationId : Option ℕ
  occurredAt : ℤ
  expiresAt : ℤ
  deriving DecidableEq

structure Engagement where
  id : ℕ
  tenant : Tenant
  startsAt : ℤ
  endsAt : ℤ
  revoked : Bool := false
  scopeSourceIps : List String
  scopeHosts : List String
  scopeTechniques : List String
  deriving DecidableEq

inductive DeconflictionStatus where
  | declaredTest
  | outOfScope
  deriving DecidableEq

structure EngagementObservation where
  tenant : Tenant
  alertId : ℕ
  sourceEventRowId : ℕ
  status : DeconflictionStatus
  primaryEngagementId : ℕ
  matchedEngagementIds : List ℕ
  deriving DecidableEq

structure Run where
  id : ℕ
  investigationId : ℕ
  /-- One of the statuses under the unique index on live runs. -/
  live : Bool
  settleSeconds : FloatVal
  deriving DecidableEq

/-- The tables, every tenant's rows in them. Primary keys with more than an id are maps;
`nextId` mints the ids. -/
structure DB where
  sourceEvents : List SourceEvent := []
  alerts : List Alert := []
  investigations : List Investigation := []
  entityKeys : List EntityKey := []
  keyStats : Tenant × String × String → Option ℕ := fun _ => none
  verdictCache : VerdictCache := fun _ => none
  tenantPolicies : Tenant → Dict := fun _ => []
  engagements : List Engagement := []
  observations : List EngagementObservation := []
  runs : List Run := []
  nextId : ℕ := 0

/-- What triage takes from outside the database: the environment, the transaction's clock,
the install policies, hashing, text normalisation and the matching of an address with a
scope entry. -/
structure Context where
  env : Environ
  now : ℤ
  installPolicies : Dict
  sha256 : String → String
  /-- `str.strip().lower()`. -/
  normalize : String → String
  lower : String → String
  upper : String → String
  /-- Both parse, and the address is the entry or in its network. -/
  ipMatches : String → String → Bool

namespace DB

def investigation? (db : DB) (id : ℕ) : Option Investigation :=
  db.investigations.find? fun i => i.id == id

def alert? (db : DB) (id : ℕ) : Option Alert := db.alerts.find? fun a => a.id == id

/-- `UPDATE alerts SET … WHERE id = …`. -/
def updateAlert (db : DB) (id : ℕ) (f : Alert → Alert) : DB :=
  { db with alerts := db.alerts.map fun a => if a.id = id then f a else a }

def updateInvestigation (db : DB) (id : ℕ) (f : Investigation → Investigation) : DB :=
  { db with investigations := db.investigations.map fun i => if i.id = id then f i else i }

def setAlertStatus (db : DB) (id : ℕ) (status : AlertStatus) (investigation : ℕ) : DB :=
  db.updateAlert id fun a => { a with status := status, investigationId := some investigation }

/-- `active_run_for_case`. -/
def activeRunForCase (db : DB) (investigation : ℕ) : Option ℕ :=
  (db.runs.find? fun r => r.investigationId == investigation && r.live).map (·.id)

/-- `start_run`: the new run is live. -/
def startRun (db : DB) (investigation : ℕ) (settleSeconds : FloatVal) : DB :=
  { db with
    runs := db.runs ++ [⟨db.nextId, investigation, true, settleSeconds⟩]
    nextId := db.nextId + 1 }

/-- The follow-up flag: set where a run has already looked at the case. -/
def flagNewEvidence (db : DB) (tenant : Tenant) (investigation : ℕ) : DB :=
  if (db.activeRunForCase investigation).isSome then
    db.updateInvestigation investigation fun i =>
      if i.tenant = tenant then { i with hasNewEvidence := true } else i
  else db

end DB

/-! ## Policies -/

/-- `policy.get(key, default)`. -/
def Policy.get (policy : Dict) (key : String) (default : Value) : Value :=
  (policy.lookup key).getD default

/-- `policy.get(key, False)` as a condition. -/
def Policy.flag (policy : Dict) (key : String) : Bool :=
  (Policy.get policy key (.bool false)).truthy

/-- `effective_policy`: the tenant's rows over the install's. -/
def effectivePolicy (ctx : Context) (db : DB) (tenant : Tenant) : Dict :=
  (db.tenantPolicies tenant).foldl (fun merged row => Dict.set merged row.1 row.2)
    ctx.installPolicies

/-- `int(value)`. -/
def intOf : Value → M ℤ
  | .bool b => .ok (if b then 1 else 0)
  | .int n => .ok n
  | .float (.fin q) => .ok (q.num.tdiv q.den)
  | .float .nan => .error .valueError
  | .float _ => .error .overflowError
  | .str s => Py.int s
  | .enum s => Py.int s
  | _ => .error .typeError

/-- `_int_policy`: a malformed value falls back; only an infinite one raises. -/
def intPolicy (policy : Dict) (key : String) (default : ℤ) : M ℤ :=
  match Policy.get policy key (.int default) with
  | .none => .ok default
  | .bool _ => .ok default
  | value =>
    match intOf value with
    | .ok n => .ok n
    | .error .typeError => .ok default
    | .error .valueError => .ok default
    | .error e => .error e

end SocTalk.Triage
