import SocTalk.Authorization.Facts
import SocTalk.Lib.Fnmatch
import SocTalk.Lib.Json

/-! The deterministic authorization evaluator: activity and facts to the four
expectedness components. Only the parse of a recurring window can raise. -/
namespace SocTalk.Authorization
open Py

/-- Sightings at or above this count are established routine. -/
def routineMin : ℤ := 5

def compromisedValues : List String := ["compromised", "contained"]

/-! ## Entity resolution -/

private def jsonHex (n : ℕ) : List Char :=
  let d := fun k => (Nat.toDigits 16 (n / 16 ^ k % 16)).headD '0'
  ['\\', 'u', d 3, d 2, d 1, d 0]

/-- `json.dumps` of a character: ASCII output, surrogate pairs past the first plane. -/
private def jsonChar (c : Char) : List Char :=
  if c = '"' ∨ c = '\\' then ['\\', c]
  else if c = '\n' then ['\\', 'n']
  else if c = '\r' then ['\\', 'r']
  else if c = '\t' then ['\\', 't']
  else if c.toNat = 8 then ['\\', 'b']
  else if c.toNat = 12 then ['\\', 'f']
  else if 32 ≤ c.toNat ∧ c.toNat < 127 then [c]
  else if c.toNat < 0x10000 then jsonHex c.toNat
  else
    let n := c.toNat - 0x10000
    jsonHex (0xD800 + n / 0x400) ++ jsonHex (0xDC00 + n % 0x400)

def jsonString (s : String) : String :=
  String.ofList ('"' :: s.toList.flatMap jsonChar ++ ['"'])

private theorem headD_toDigits {k : ℕ} (h : k < 16) :
    (Nat.toDigits 16 k).headD '0' = Json.hexDigit k := by
  interval_cases k <;> rfl

private theorem jsonHex_eq {n : ℕ} (h : n < 65536) : jsonHex n = Json.unitEscape n := by
  have h3 : n / 16 ^ 3 % 16 = n / 4096 := by omega
  have h2 : n / 16 ^ 2 % 16 = n / 256 % 16 := by omega
  have h1 : n / 16 ^ 1 % 16 = n / 16 % 16 := by omega
  have h0 : n / 16 ^ 0 % 16 = n % 16 := by omega
  have hd : n / 4096 < 16 := by omega
  unfold jsonHex Json.unitEscape
  simp only [h3, h2, h1, h0, headD_toDigits hd, headD_toDigits (Nat.mod_lt _ (by decide))]

private theorem jsonChar_eq (c : Char) : jsonChar c = Json.escape c := by
  have hc := Json.char_toNat_lt c
  unfold jsonChar Json.escape
  by_cases hq : c = '"'
  · simp [hq]
  by_cases hb : c = '\\'
  · simp [hb]
  simp only [hq, hb, or_self, if_false]
  repeat' split
  all_goals try rfl
  · exact jsonHex_eq ‹_›
  · rw [jsonHex_eq (by omega), jsonHex_eq (by omega)]

/-- The text of a string in a resolution key is its JSON text. -/
theorem toList_jsonString (s : String) : (jsonString s).toList = Json.dumpText s := by
  unfold jsonString Json.dumpText
  rw [String.toList_ofList, funext jsonChar_eq]

def jsonBool (b : Bool) : String := if b then "true" else "false"

def jsonList (xs : List String) : String := "[" ++ String.intercalate "," (xs.map jsonString) ++ "]"

/-- The attributes that break a tie between records of equal trust, defaults filled in. -/
def entityKeyFields (fact : EntityContextFact) : List (String × String) :=
  let text := fun (v : Option String) (default : String) => jsonString (v.getD default)
  let status := text (fact.compromiseStatus.map CompromiseStatus.value) "clean"
  match fact.entityType with
  | .asset =>
    [("name", jsonString fact.name), ("environment", text fact.environment "prod"),
      ("criticality", text fact.criticality "medium"), ("owner_org", text fact.ownerOrg ""),
      ("custodian_account", text fact.custodianAccount ""),
      ("data_classification", text fact.dataClassification "none"),
      ("compromise_status", status)]
  | .watchedPath =>
    [("name", jsonString fact.name), ("config_class", text fact.configClass "app"),
      ("criticality", text fact.criticality "medium"),
      ("environment", text fact.environment "prod"), ("owner_org", text fact.ownerOrg ""),
      ("approver", text fact.approver ""), ("compromise_status", status)]
  | .account =>
    [("name", jsonString fact.name),
      ("account_type", text (fact.accountType.map AccountKind.value) ""),
      ("owner_org", text fact.ownerOrg ""), ("privileged", jsonBool (fact.privileged.getD false)),
      ("break_glass", jsonBool (fact.breakGlass.getD false)),
      ("service_owner", text fact.serviceOwner ""), ("on_call", jsonBool (fact.onCall.getD true))]
  | .org => [("name", jsonString fact.name), ("linked_orgs", jsonList (fact.linkedOrgs.getD []))]

def entityResolutionKey (fact : EntityContextFact) : String :=
  let fields := entityKeyFields fact ++ [("trust", toString fact.trust)]
  "\x7b" ++ String.intercalate "," (fields.map fun p => jsonString p.1 ++ ":" ++ p.2) ++ "\x7d"

/-- The order of `max(..., key=lambda f: (f.trust, entity_resolution_key(f)))`. -/
def resolvesBelow (f g : EntityContextFact) : Bool :=
  f.trust < g.trust || (f.trust == g.trust && entityResolutionKey f < entityResolutionKey g)

/-- Python's `max`: the first of the greatest. -/
def maxResolved : List EntityContextFact → Option EntityContextFact
  | [] => none
  | f :: fs => some (fs.foldl (fun best g => if resolvesBelow best g then g else best) f)

/-- Track, tenant and lifecycle gate. -/
def select (facts : List AuthorizationFact) (track : AuthorizationTrack)
    (tenant : Option String) : List AuthorizationFact :=
  facts.filter fun f => f.base.track == track &&
    (tenant.isNone || f.base.tenant == tenant) && f.base.supersededBy.isNone

def grants (facts : List AuthorizationFact) : List GrantFact :=
  facts.filterMap fun f => match f with
    | .grant g => some g
    | _ => none

def prohibitions (facts : List AuthorizationFact) : List ProhibitionFact :=
  facts.filterMap fun f => match f with
    | .prohibition p => some p
    | _ => none

def freezes (facts : List AuthorizationFact) : List ChangeFreezeFact :=
  facts.filterMap fun f => match f with
    | .changeFreeze fr => some fr
    | _ => none

def entities (facts : List AuthorizationFact) : List EntityContextFact :=
  facts.filterMap fun f => match f with
    | .entityContext e => some e
    | _ => none

def resolvedEntity (facts : List AuthorizationFact) (entityType : AuthorizationEntityKind)
    (name : String) : Option EntityContextFact :=
  maxResolved ((entities facts).filter fun e => e.entityType == entityType && e.name == name)

/-- Highest-trust account record with a known type. -/
def accountFact (facts : List AuthorizationFact) (name : String) : Option EntityContextFact :=
  maxResolved ((entities facts).filter fun e =>
    e.entityType == .account && e.name == name && e.accountType.isSome)

def compromised (status : Option CompromiseStatus) : Bool :=
  match status with
  | some s => compromisedValues.contains s.value
  | none => false

/-- Any compromise-flagged record for the subject wins. -/
def accountCompromised (facts : List AuthorizationFact) (name : String) : Bool :=
  (entities facts).any fun e =>
    e.entityType == .account && e.name == name && compromised e.compromiseStatus

/-- An entity attribute, with the source model's default when there is no record or no value. -/
def attr (fact : Option EntityContextFact) (field : EntityContextFact → Option String)
    (default : String) : String := (fact.bind field).getD default

def environmentOf (asset : Option EntityContextFact) : String :=
  attr asset EntityContextFact.environment "prod"
def criticalityOf (asset : Option EntityContextFact) : String :=
  attr asset EntityContextFact.criticality "medium"
def dataClassificationOf (asset : Option EntityContextFact) : String :=
  attr asset EntityContextFact.dataClassification "none"
def ownerOrgOf (asset : Option EntityContextFact) : String :=
  attr asset EntityContextFact.ownerOrg ""
def configClassOf (path : Option EntityContextFact) : String :=
  attr path EntityContextFact.configClass "app"
def statusOf (fact : Option EntityContextFact) : String :=
  attr fact (fun e => e.compromiseStatus.map CompromiseStatus.value) "clean"

/-! ## Windows and validity -/

/-- A time of day from "HH:MM". -/
def parseHhmm (value : String) : M ℤ := do
  match split ':' value with
  | [h, m] =>
    let h ← Py.int h
    let m ← Py.int m
    if 0 ≤ h ∧ h < 24 ∧ 0 ≤ m ∧ m < 60 then return (h * 60 + m) * microsPerMinute
    else throw .valueError
  | _ => throw .valueError

/-- Inclusive on both ends. The comparison chains, so the end is parsed only from the start on. -/
def inWindow (t : DateTime) (w : RecurringWindow) : M Bool := do
  let start ← parseHhmm w.start
  if start ≤ t.time then
    let stop ← parseHhmm w.end
    return t.time ≤ stop
  else return false

def inRecurringWindow (g : GrantFact) (t : DateTime) : M Bool :=
  match g.scope.recurringWindow with
  | none => return true
  | some w => inWindow t w

def inValidity (g : GrantFact) (t : DateTime) : Bool :=
  (match g.validFrom with
    | some s => s.le t
    | none => true) &&
  (match g.validUntil with
    | some s => t.le s
    | none => true)

/-- The last two clauses of every coverage predicate. -/
def inForce (g : GrantFact) (t : DateTime) : M Bool := do
  if ← inRecurringWindow g t then return inValidity g t else return false

/-- Approved, and approved by the board where that is required. -/
def grantOk (g : GrantFact) : Bool :=
  g.status == .approved && (!g.cabRequired || g.cabApproved)

/-- Symmetric linkage over the trust-resolved organisation records. -/
def orgLinked (facts : List AuthorizationFact) (a b : String) : Bool :=
  let links := fun name other => match resolvedEntity facts .org name with
    | some org => (org.linkedOrgs.getD []).contains other
    | none => false
  a == b || links a b || links b a

/-! ## Account track -/

def acctFreezeBlocks (facts : List AuthorizationFact) (assetEnv : String) (g : GrantFact)
    (t : DateTime) : Bool :=
  !g.freezeException && (freezes facts).any fun fr =>
    fr.freezeScope.envs.contains assetEnv && fr.start.le t && t.le fr.end &&
      !fr.allowedExceptionIds.contains g.id

def acctMatches (g : GrantFact) (a : AuthorizationActivity) : Bool :=
  g.scope.target == a.host && g.scope.subject == a.account && g.scope.action == a.action

def acctTicketCovers (facts : List AuthorizationFact) (g : GrantFact)
    (a : AuthorizationActivity) (assetEnv : String) : M Bool := do
  if g.grantClass == .changeTicket && grantOk g && acctMatches g a then
    if ← inForce g a.time then return !acctFreezeBlocks facts assetEnv g a.time else return false
  else return false

def acctBaselineCovers (g : GrantFact) (a : AuthorizationActivity) : M Bool :=
  if g.grantClass == .standingBaseline && acctMatches g a then inForce g a.time
  else return false

def acctRoutine (g : GrantFact) (a : AuthorizationActivity) : M Bool :=
  if g.grantClass == .routineObservation && acctMatches g a &&
      routineMin ≤ g.seenCount.getD 0 && !g.ioc.getD false then inForce g a.time
  else return false

/-- Sanction is looser than coverage: no host, no window. -/
def acctSanctions (g : GrantFact) (a : AuthorizationActivity) : Bool :=
  ((g.grantClass == .changeTicket && grantOk g) || g.grantClass == .standingBaseline) &&
    g.scope.subject == a.account && g.scope.action == a.action

def acctSanctioned (grants : List GrantFact) (a : AuthorizationActivity) : M Bool :=
  if grants.any (acctSanctions · a) then return true
  else grants.anyM (acctRoutine · a)

def acctCovered (facts : List AuthorizationFact) (a : AuthorizationActivity)
    (assetEnv : String) : M Bool := do
  if ← (grants facts).anyM (acctTicketCovers facts · a assetEnv) then return true
  if ← (grants facts).anyM (acctBaselineCovers · a) then return true
  (grants facts).anyM (acctRoutine · a)

def acctActorGenuine (facts : List AuthorizationFact) (a : AuthorizationActivity)
    (asset account : Option EntityContextFact) : Bool :=
  if accountCompromised facts (a.account.getD "") then false
  else if compromisedValues.contains (statusOf asset) then false
  else match account with
    | none => true
    | some acct =>
      let privileged := acct.privileged.getD false
      let onCall := acct.onCall.getD true
      let breakGlass := acct.breakGlass.getD false
      if acct.accountType == some .service && a.interactive then false
      else !(acct.accountType == some .human && privileged && !onCall && !breakGlass)

/-- One turn of the prohibition loop: whether `p` forbids the activity. -/
def acctForbids (facts : List AuthorizationFact) (a : AuthorizationActivity)
    (asset account : Option EntityContextFact) (p : ProhibitionFact) : M Bool := do
  if p.forbidAction != a.action || p.priority != .high || p.waiverPresent then return false
  if p.forbidAccountType.isSome && account.bind (·.accountType) != p.forbidAccountType then
    return false
  if p.appliesTo.env.isSome && !(p.appliesTo.env.getD []).contains (environmentOf asset) then
    return false
  if p.appliesTo.criticality.isSome &&
      !(p.appliesTo.criticality.getD []).contains (criticalityOf asset) then
    return false
  if p.appliesTo.dataClass.isSome &&
      !(p.appliesTo.dataClass.getD []).contains (dataClassificationOf asset) then
    return false
  if p.breakGlassException && (account.bind (·.breakGlass)).getD false then
    -- Break-glass needs a covering emergency change, not just any.
    let covered ← (grants facts).anyM fun g =>
      if g.emergency then acctTicketCovers facts g a (environmentOf asset) else pure false
    return !covered
  return true

def acctComponents (facts : List AuthorizationFact) (a : AuthorizationActivity) :
    M AuthorizationComponents := do
  let asset := resolvedEntity facts .asset (a.host.getD "")
  let account := accountFact facts (a.account.getD "")
  let covered ← acctCovered facts a (environmentOf asset)
  let acctOrg := (account.bind (·.ownerOrg)).getD ""
  let forbidden ← (prohibitions facts).anyM (acctForbids facts a asset account)
  let sanctioned ← acctSanctioned (grants facts) a
  return { sanctionedOrRoutine := sanctioned
           inScope := covered && orgLinked facts acctOrg (ownerOrgOf asset)
           actorGenuine := acctActorGenuine facts a asset account
           policyAllowed := !forbidden }

/-! ## File-integrity track -/

def fimTypeMatches (g : GrantFact) (change : Option ChangeKind) : Bool :=
  g.scope.changeType == none || g.scope.changeType == some .any || g.scope.changeType == change

def fimMatches (g : GrantFact) (a : AuthorizationActivity) : Bool :=
  (match g.scope.target with
    | some target => Fnmatch.fnmatch (a.path.getD "") target
    | none => false) && fimTypeMatches g a.changeType

/-- Coverage ignoring freezes; the freeze gate is applied once over all coverage. -/
def fimCrCovers (g : GrantFact) (a : AuthorizationActivity) : M Bool :=
  if g.grantClass == .changeTicket && grantOk g && fimMatches g a then inForce g a.time
  else return false

def fimBaselineCovers (g : GrantFact) (a : AuthorizationActivity) : M Bool :=
  if g.grantClass == .standingBaseline && fimMatches g a then inForce g a.time
  else return false

/-- Approval only: the board is not consulted on this track. -/
def fimSanctions (g : GrantFact) (a : AuthorizationActivity) : Bool :=
  fimMatches g a && ((g.grantClass == .changeTicket && g.status == .approved) ||
    g.grantClass == .standingBaseline)

def fimFreezeBlocks (configClass : String) (coveringCrs : List GrantFact) (t : DateTime)
    (fr : ChangeFreezeFact) : Bool :=
  fr.freezeScope.configClasses.contains configClass && fr.start.le t && t.le fr.end &&
    !coveringCrs.any fun g => g.freezeException || fr.allowedExceptionIds.contains g.id

def fimForbids (facts : List AuthorizationFact) (a : AuthorizationActivity)
    (configClass : String) (p : ProhibitionFact) : M Bool := do
  if p.priority != .high || p.waiverPresent then return false
  let classes := p.appliesTo.configClass.getD []
  if !classes.isEmpty && !classes.contains configClass then return false
  let change := (a.changeType.map ChangeKind.value).getD ""
  if p.forbidChangeType.isSome && !(p.forbidChangeType.getD []).contains change then return false
  if p.breakGlassException then
    let covered ← (grants facts).anyM fun g =>
      if g.emergency then fimCrCovers g a else pure false
    return !covered
  return true

def fimCovered (facts : List AuthorizationFact) (a : AuthorizationActivity)
    (coveringCrs : List GrantFact) : M Bool :=
  if coveringCrs.isEmpty then (grants facts).anyM (fimBaselineCovers · a) else return true

def fimComponents (facts : List AuthorizationFact) (a : AuthorizationActivity) :
    M AuthorizationComponents := do
  let wp := resolvedEntity facts .watchedPath (a.path.getD "")
  let configClass := configClassOf wp
  let coveringCrs ← (grants facts).filterM (fimCrCovers · a)
  let covered ← fimCovered facts a coveringCrs
  let forbidden ← (prohibitions facts).anyM (fimForbids facts a configClass)
  return { sanctionedOrRoutine := (grants facts).any (fimSanctions · a)
           inScope := covered && !(freezes facts).any (fimFreezeBlocks configClass coveringCrs a.time)
           actorGenuine := !compromisedValues.contains (statusOf wp)
           policyAllowed := !forbidden }

/-! ## Public surface -/

def selectFacts := select

def evaluateAuthorization (activity : AuthorizationActivity) (facts : List AuthorizationFact)
    (tenant : Option String) : M AuthorizationComponents :=
  match activity.track with
  | .fim => fimComponents (select facts activity.track tenant) activity
  | .account => acctComponents (select facts activity.track tenant) activity

/-- The grants whose own coverage predicate holds; the freeze gate of the file track is left out. -/
def findCoveringGrants (activity : AuthorizationActivity) (facts : List AuthorizationFact)
    (tenant : Option String) : M (List GrantFact) :=
  let selected := select facts activity.track tenant
  match activity.track with
  | .fim => (grants selected).filterM fun g => do
    if ← fimCrCovers g activity then return true
    fimBaselineCovers g activity
  | .account =>
    let assetEnv := environmentOf (resolvedEntity selected .asset (activity.host.getD ""))
    (grants selected).filterM fun g => do
      if ← acctTicketCovers selected g activity assetEnv then return true
      if ← acctBaselineCovers g activity then return true
      acctRoutine g activity

inductive AuthzClass where
  | covered
  | contradicted
  | absent
  deriving DecidableEq

def AuthzClass.value : AuthzClass → String
  | .covered => "covered"
  | .contradicted => "contradicted"
  | .absent => "absent"

/-- The class of a context and the components it was read off. -/
def deriveAuthzClass (context : Option AuthorizationContext) :
    M (AuthzClass × Option AuthorizationComponents) := do
  match context with
  | none => return (.absent, none)
  | some context =>
    let selected := selectFacts context.facts context.activity.track context.tenant
    if selected.isEmpty then return (.absent, none)
    let components ← evaluateAuthorization context.activity context.facts context.tenant
    if !components.policyAllowed then return (.contradicted, some components)
    if components.inScope then return (.covered, some components)
    if selected.any AuthorizationFact.isGrant then return (.contradicted, some components)
    return (.absent, some components)

end SocTalk.Authorization
