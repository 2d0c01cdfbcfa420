import Mathlib.Data.List.MinMax
import SocTalk.Triage.Store

/-! The two screens of a fresh alert before its close checks: the declared engagements, and
the routine history that a memoized close may need. -/
namespace SocTalk.Triage
open Py Authorization

/-- `sorted` of a list of texts. -/
def sortedTexts (xs : List String) : List String := xs.insertionSort (· ≤ ·)

/-! ## Engagement deconfliction -/

/-- The roles that mark where activity comes from. -/
def sourceIpRoles : List String := ["src", "source", "source_ip", "attacker", "client"]

structure DeconflictionInputs where
  sourceIps : List String
  hosts : List String
  techniques : List String
  deriving DecidableEq

def deconflictionInputs (ctx : Context) (e : Ingest) : DeconflictionInputs :=
  let entities := e.evidence.entities.filter fun ent => ent.value ≠ ""
  let isSource := fun ent : WireEntity => ctx.lower ent.type == "ip" &&
    sourceIpRoles.contains (ctx.lower (ent.role.getD ""))
  let isHost := fun ent : WireEntity =>
    ctx.lower ent.type == "host" || ctx.lower ent.type == "hostname"
  { sourceIps := (entities.filter isSource).map (·.value)
    hosts := sortedTexts
      (e.assetIds.filter (· ≠ "") ++ (entities.filter isHost).map (·.value)).dedup
    techniques := sortedTexts (e.evidence.mitre.ids.filter (· ≠ "")).dedup }

/-- What strays from an engagement's scope. -/
structure OutOfScope where
  sourceIps : List String
  hosts : List String
  techniques : List String
  missingTarget : Bool
  deriving DecidableEq

def OutOfScope.count (o : OutOfScope) : ℕ :=
  o.sourceIps.length + o.hosts.length + o.techniques.length + if o.missingTarget then 1 else 0

structure Deconfliction where
  status : DeconflictionStatus
  engagementId : ℕ
  matchedEngagementIds : List ℕ
  outOfScope : Option OutOfScope := none
  deriving DecidableEq

def ipInScope (ctx : Context) (scope : List String) (ip : String) : Bool :=
  scope.any (ctx.ipMatches ip)

/-- How an engagement takes the activity: nothing where no observed source is its tester's. -/
def strayFrom (ctx : Context) (inputs : DeconflictionInputs) (eng : Engagement) :
    Option OutOfScope :=
  let scopeHosts := eng.scopeHosts.map ctx.lower
  let scopeTech := eng.scopeTechniques.map ctx.upper
  let hostIn := fun h => scopeHosts.contains (ctx.lower h)
  let techIn := fun t => scopeTech.contains (ctx.upper t)
  if !inputs.sourceIps.any (ipInScope ctx eng.scopeSourceIps) then none
  else some
    { sourceIps := inputs.sourceIps.filter fun ip => !ipInScope ctx eng.scopeSourceIps ip
      hosts := inputs.hosts.filter fun h => !scopeHosts.isEmpty && !hostIn h
      techniques := inputs.techniques.filter fun t => !scopeTech.isEmpty && !techIn t
      missingTarget := !(inputs.hosts.any hostIn || inputs.techniques.any techIn) }

/-- The unrevoked engagements around the event, the latest started first. -/
def coveringEngagements (db : DB) (tenant : Tenant) (occurredAt : ℤ) : List Engagement :=
  (db.engagements.filter fun g => g.tenant = tenant ∧ g.startsAt ≤ occurredAt ∧
    occurredAt ≤ g.endsAt ∧ g.revoked = false).insertionSort fun g g' => g'.startsAt ≤ g.startsAt

def deconflict (ctx : Context) (db : DB) (tenant : Tenant) (occurredAt : ℤ)
    (inputs : DeconflictionInputs) : Option Deconfliction :=
  let judged := (coveringEngagements db tenant occurredAt).filterMap fun g =>
    (strayFrom ctx inputs g).map fun o => (g.id, o)
  let (matched, strayed) := judged.partition fun p => p.2.count = 0
  match matched with
  | p :: _ => some ⟨.declaredTest, p.1, matched.map Prod.fst, none⟩
  | [] =>
    match strayed.argmin (fun p => p.2.count) with
    | some p => some ⟨.outOfScope, p.1, [p.1], some p.2⟩
    | none => none

/-- `ON CONFLICT (tenant_id, source_event_row_id) DO NOTHING`. -/
def recordEngagementObservation (db : DB) (tenant : Tenant) (alert sourceEventRow : ℕ)
    (d : Deconfliction) : DB :=
  if db.observations.any fun o => o.tenant == tenant && o.sourceEventRowId == sourceEventRow then
    db
  else
    { db with observations := db.observations ++
        [⟨tenant, alert, sourceEventRow, d.status, d.engagementId, d.matchedEngagementIds⟩] }

/-- A declared test needs every axis: nothing of what was observed strays, a source is in the
engagement's scope, and a host or a technique is. -/
theorem strayFrom_count_eq_zero {ctx : Context} {inputs : DeconflictionInputs} {eng : Engagement}
    {o : OutOfScope} (h : strayFrom ctx inputs eng = some o) (hzero : o.count = 0) :
    (∃ ip ∈ inputs.sourceIps, ipInScope ctx eng.scopeSourceIps ip = true) ∧
      (∀ ip ∈ inputs.sourceIps, ipInScope ctx eng.scopeSourceIps ip = true) ∧
      ((∃ h ∈ inputs.hosts, ctx.lower h ∈ eng.scopeHosts.map ctx.lower) ∨
        ∃ t ∈ inputs.techniques, ctx.upper t ∈ eng.scopeTechniques.map ctx.upper) := by
  unfold strayFrom at h
  dsimp only at h
  split at h
  · cases h
  · rename_i hsource
    obtain rfl := Option.some.inj h
    simp only [OutOfScope.count] at hzero
    split at hzero
    · omega
    · rename_i htarget
      have hnone : (inputs.sourceIps.filter fun ip =>
          !ipInScope ctx eng.scopeSourceIps ip).length = 0 := by omega
      refine ⟨by simpa using hsource, ?_, ?_⟩
      · intro ip hip
        by_contra hout
        have hmem : ip ∈ inputs.sourceIps.filter fun ip => !ipInScope ctx eng.scopeSourceIps ip :=
          List.mem_filter.mpr ⟨hip, by simpa using hout⟩
        rw [List.length_eq_zero_iff.mp hnone] at hmem
        cases hmem
      · rw [Bool.not_eq_true', Bool.not_eq_false, Bool.or_eq_true] at htarget
        rcases htarget with hhost | htech
        · obtain ⟨h, hmem, hin⟩ := List.any_eq_true.mp hhost
          exact Or.inl ⟨h, hmem, by simpa using hin⟩
        · obtain ⟨t, hmem, hin⟩ := List.any_eq_true.mp htech
          exact Or.inr ⟨t, hmem, by simpa using hin⟩

/-! ## Routine history -/

structure ShadowSettings where
  kill : Bool := false
  families : List String := []
  lookbackDays : ℤ := 30
  minDays : ℤ := 5
  maxSeverity : ℤ := 9
  deriving DecidableEq

def envFlag (env : Environ) (name : String) : Bool :=
  ["1", "true", "yes"].contains (lower (env.get name ""))

/-- A malformed number switches the scoring off. -/
def ShadowSettings.fromEnv (env : Environ) : ShadowSettings :=
  let families := ((split ',' (env.get "SOCTALK_AUTHZ_ROUTINE_FAMILIES" "")).map strip).filter
    (· ≠ "")
  match Py.int (env.get "SOCTALK_AUTHZ_ROUTINE_LOOKBACK_DAYS" "30"),
      Py.int (env.get "SOCTALK_AUTHZ_ROUTINE_MIN_DAYS" "5"),
      Py.int (env.get "SOCTALK_AUTHZ_ROUTINE_MAX_SEVERITY" "9") with
  | .ok lookback, .ok minDays, .ok maxSeverity =>
    ⟨envFlag env "SOCTALK_AUTHZ_ROUTINE_KILL", families, lookback, minDays, maxSeverity⟩
  | _, _, _ => { kill := true }

/-- `policy.get(key) is True`. -/
def Policy.isTrue (policy : Dict) (key : String) : Bool :=
  match Policy.get policy key .none with
  | .bool b => b
  | _ => false

def shouldScore (settings : ShadowSettings) (policy : Dict) (decoder : Option String) : Bool :=
  !settings.kill && (match decoder with
    | none => false
    | some d => d ≠ "" && settings.families.contains d) &&
  Policy.isTrue policy "authz_routine_shadow_enabled" &&
  Policy.isTrue policy "entity_correlation_enabled"

inductive Exclusion where
  | severityTooHigh
  | mitreMapped
  | iocPresent
  | routineIocTainted
  deriving DecidableEq

def hasMitre (m : WireMitre) : Bool :=
  !m.ids.isEmpty || !m.tactics.isEmpty || !m.techniques.isEmpty

def exclusionReasons (settings : ShadowSettings) (e : Ingest) (historyIoc : Bool) :
    List Exclusion :=
  (if settings.maxSeverity < e.severity then [Exclusion.severityTooHigh] else []) ++
  (if hasMitre e.evidence.mitre then [Exclusion.mitreMapped] else []) ++
  (if e.initialIocs ≠ [] then [Exclusion.iocPresent] else []) ++
  (if historyIoc then [Exclusion.routineIocTainted] else [])

/-- The routine as a grant of its own class, tainted where a threat hit is on it. -/
def routineFact (seenDays : ℤ) (account host action : String) (ioc : Bool) : GrantFact :=
  { id := "ROUTINE-SHADOW", track := .account, trust := 40
    scope := { subject := some account, target := some host, action := some action }
    grantClass := .routineObservation, seenCount := some seenDays, ioc := some ioc
    classLegality := ⟨rfl, rfl, rfl, rfl, nofun⟩ }

def routineActivity (host account action : String) (ts : ℤ) : AuthorizationActivity :=
  { track := .account, host := some host, account := some account, action := some action
    time := ⟨ts, 0⟩, trackFields := ⟨nofun, nofun, nofun⟩ }

def AuthorizationComponents.expected (c : AuthorizationComponents) : Bool :=
  c.sanctionedOrRoutine && c.inScope && c.actorGenuine && c.policyAllowed

structure Routine where
  wouldClose : Bool
  seenDays : ℤ
  matureHistory : Bool
  excluded : List Exclusion
  deriving DecidableEq

def evaluateShadow (settings : ShadowSettings) (e : Ingest) (seenDays : ℤ)
    (host account action : String) (ts : ℤ) (historyIoc : Bool) : M Routine := do
  let excluded := exclusionReasons settings e historyIoc
  let fact := routineFact seenDays account host action (e.initialIocs ≠ [] || historyIoc)
  let components ← evaluateAuthorization (routineActivity host account action ts) [.grant fact] none
  let mature : Bool := settings.minDays ≤ seenDays
  return { wouldClose := excluded.isEmpty && mature && AuthorizationComponents.expected components
           seenDays := seenDays, matureHistory := mature, excluded := excluded }

def discriminatingEntityTypes : List String := ["host", "user", "process", "ip", "domain", "port"]

/-- The entities the routine must match on, without repeats, by type and value. -/
def discriminatingEntities (es : List WireEntity) : List (String × String) :=
  let pairs := (es.filter fun ent =>
    discriminatingEntityTypes.contains ent.type && ent.value ≠ "").map fun ent => (ent.type, ent.value)
  pairs.dedup.insertionSort fun p q => p.1 < q.1 ∨ p.1 = q.1 ∧ p.2 ≤ q.2

def firstValue (scope : List (String × String)) (type : String) : Option String := scope.lookup type

/-- A sighting of the same tuple before the event, inside the lookback window. -/
def sameRoutine (e : Ingest) (scope : List (String × String)) (since ts : ℤ) (s : SourceEvent) :
    Bool :=
  s.tenant == e.tenant && s.source == e.source &&
  s.decoder.isSome && s.decoder == e.evidence.decoder &&
  s.templateHash.isSome && s.templateHash == e.evidence.templateHash &&
  s.templateVersion == e.evidence.templateVersion &&
  since ≤ s.occurredAt && s.occurredAt < ts &&
  scope.all fun p => s.entities.any fun ent => ent.type == p.1 && ent.value == p.2

/-- `text or default`. -/
def orText (text : Option String) (default : String) : String :=
  match text with
  | some s => if s = "" then default else s
  | none => default

/-- The routine decision for one alert, absent where the alert is no candidate. -/
def evaluateAlertRoutineAuthorization (settings : ShadowSettings) (db : DB) (e : Ingest) (ts : ℤ) :
    M (Option Routine) := do
  let scope := discriminatingEntities e.evidence.entities
  match e.evidence.templateHash, firstValue scope "host" with
  | some hash, some host =>
    if hash = "" then return none
    let since := ts - settings.lookbackDays * microsPerDay
    let days := ((db.sourceEvents.filter (sameRoutine e scope since ts)).map
      fun s => s.occurredAt / microsPerDay).dedup
    let historyIoc := db.alerts.any fun a => a.tenant == e.tenant && a.initialIocs ≠ [] &&
      a.assetIds.contains host && since ≤ a.firstEventAt && a.firstEventAt < ts
    let action := orText e.evidence.decoder (orText e.ruleId "unknown")
    let routine ← evaluateShadow settings e days.length host
      ((firstValue scope "user").getD "") action ts historyIoc
    return some routine
  | _, _ => return none

/-- Shadow scoring: a failure counts as no result. -/
def scoreAlertShadow (settings : ShadowSettings) (db : DB) (e : Ingest) (ts : ℤ) : Option Routine :=
  match evaluateAlertRoutineAuthorization settings db e ts with
  | .ok routine => routine
  | .error _ => none

/-- An alert with indicators is never routine, whatever its history. -/
theorem not_wouldClose_of_iocs {settings : ShadowSettings} {db : DB} {e : Ingest} {ts : ℤ}
    {routine : Routine} (h : scoreAlertShadow settings db e ts = some routine)
    (hclose : routine.wouldClose = true) :
    e.initialIocs = [] ∧ hasMitre e.evidence.mitre = false ∧ e.severity ≤ settings.maxSeverity ∧
      settings.minDays ≤ routine.seenDays := by
  unfold scoreAlertShadow at h
  split at h
  · rename_i r hr
    subst h
    unfold evaluateAlertRoutineAuthorization at hr
    dsimp only at hr
    split at hr
    · split_ifs at hr
      · simp at hr
      · obtain ⟨result, hresult, hsome⟩ := (bind_eq_ok _ _ _).mp hr
        obtain rfl : result = routine := by simpa using hsome
        obtain ⟨components, -, hret⟩ := (bind_eq_ok _ _ _).mp hresult
        have hret := (pure_eq_ok _ _).mp hret
        subst hret
        simp only [Bool.and_eq_true, List.isEmpty_iff, exclusionReasons, List.append_eq_nil_iff,
          ite_eq_right_iff, List.cons_ne_nil, imp_false, decide_eq_true_eq] at hclose
        obtain ⟨⟨⟨⟨⟨hsev, hmitre⟩, hioc⟩, -⟩, hmature⟩, -⟩ := hclose
        exact ⟨not_not.mp hioc, by simpa using hmitre, by omega, hmature⟩
    · simp at hr
  · cases h

end SocTalk.Triage
