import Mathlib.Data.Rat.Defs

/-! The typed authorization contract: facts, the activity they are bound against, and
the four expectedness components. Fields that no evaluation reads are left out. -/
namespace SocTalk.Authorization

/-- An aware datetime: the instant and the UTC offset it is written with, in microseconds. -/
structure DateTime where
  instant : ℤ
  offset : ℤ
  deriving DecidableEq

def microsPerMinute : ℤ := 60 * 1000000
def microsPerDay : ℤ := 24 * 60 * microsPerMinute

/-- `t.time()`, the wall clock of the datetime's own zone. -/
def DateTime.time (t : DateTime) : ℤ := (t.instant + t.offset) % microsPerDay

def DateTime.le (s t : DateTime) : Bool := s.instant ≤ t.instant

inductive AuthorizationTrack where
  | account
  | fim
  deriving DecidableEq

inductive GrantClass where
  | changeTicket
  | standingBaseline
  | routineObservation
  deriving DecidableEq

inductive GrantStatus where
  | approved
  | pending
  | rejected
  deriving DecidableEq

inductive PolicyPriority where
  | high
  | medium
  | low
  deriving DecidableEq

inductive AccountKind where
  | service
  | human
  deriving DecidableEq

inductive AuthorizationEntityKind where
  | asset
  | account
  | watchedPath
  | org
  deriving DecidableEq

inductive ChangeKind where
  | modify
  | add
  | delete
  | any
  deriving DecidableEq

def ChangeKind.value : ChangeKind → String
  | .modify => "modify"
  | .add => "add"
  | .delete => "delete"
  | .any => "any"

inductive CompromiseStatus where
  | clean
  | suspected
  | compromised
  | contained
  deriving DecidableEq

def CompromiseStatus.value : CompromiseStatus → String
  | .clean => "clean"
  | .suspected => "suspected"
  | .compromised => "compromised"
  | .contained => "contained"

def AccountKind.value : AccountKind → String
  | .service => "service"
  | .human => "human"

/-- A recurring daily window. The model validates neither text. -/
structure RecurringWindow where
  start : String
  «end» : String
  deriving DecidableEq

structure FactScope where
  subject : Option String := none
  target : Option String := none
  action : Option String := none
  changeType : Option ChangeKind := none
  recurringWindow : Option RecurringWindow := none
  deriving DecidableEq

structure PolicyApplicability where
  env : Option (List String) := none
  criticality : Option (List String) := none
  dataClass : Option (List String) := none
  configClass : Option (List String) := none
  deriving DecidableEq

structure FreezeScope where
  envs : List String := []
  configClasses : List String := []
  deriving DecidableEq

/-- The common envelope: identity, scope, trust, calendar validity, lifecycle. -/
structure AuthorizationFactBase where
  id : String
  track : AuthorizationTrack
  tenant : Option String := none
  scope : FactScope := {}
  trust : ℤ := 80
  validFrom : Option DateTime := none
  validUntil : Option DateTime := none
  supersededBy : Option String := none
  deriving DecidableEq

structure GrantFact extends AuthorizationFactBase where
  grantClass : GrantClass
  status : GrantStatus := .approved
  cabRequired : Bool := false
  cabApproved : Bool := true
  emergency : Bool := false
  freezeException : Bool := false
  seenCount : Option ℤ := none
  ioc : Option Bool := none
  classLegality : match grantClass with
    | .changeTicket => validUntil ≠ none ∧ seenCount = none ∧ ioc = none
    | .standingBaseline => status = .approved ∧ cabRequired = false ∧ emergency = false ∧
        freezeException = false ∧ seenCount = none ∧ ioc = none
    | .routineObservation => status = .approved ∧ cabRequired = false ∧ emergency = false ∧
        freezeException = false ∧ seenCount ≠ none

/-- A standing baseline with nothing of the other classes. -/
theorem plain_baseline : GrantStatus.approved = .approved ∧ false = false ∧ false = false ∧ false = false ∧
    (none : Option ℤ) = none ∧ (none : Option Bool) = none :=
  ⟨rfl, rfl, rfl, rfl, rfl, rfl⟩

structure ProhibitionFact extends AuthorizationFactBase where
  forbidAction : Option String := none
  forbidChangeType : Option (List String) := none
  forbidAccountType : Option AccountKind := none
  appliesTo : PolicyApplicability := {}
  priority : PolicyPriority := .high
  waiverPresent : Bool := false
  breakGlassException : Bool := false
  trackLegality : match track with
    | .account => forbidAction ≠ none ∧ forbidChangeType = none ∧ appliesTo.configClass = none
    | .fim => forbidAction = none ∧ forbidAccountType = none ∧ appliesTo.env = none ∧
        appliesTo.criticality = none ∧ appliesTo.dataClass = none

structure ChangeFreezeFact extends AuthorizationFactBase where
  freezeScope : FreezeScope := {}
  start : DateTime
  «end» : DateTime
  allowedExceptionIds : List String := []
  trackLegality : match track with
    | .account => freezeScope.envs ≠ [] ∧ freezeScope.configClasses = []
    | .fim => freezeScope.configClasses ≠ [] ∧ freezeScope.envs = []

structure EntityContextFact extends AuthorizationFactBase where
  entityType : AuthorizationEntityKind
  name : String
  environment : Option String := none
  criticality : Option String := none
  dataClassification : Option String := none
  configClass : Option String := none
  ownerOrg : Option String := none
  custodianAccount : Option String := none
  approver : Option String := none
  serviceOwner : Option String := none
  accountType : Option AccountKind := none
  privileged : Option Bool := none
  onCall : Option Bool := none
  breakGlass : Option Bool := none
  compromiseStatus : Option CompromiseStatus := none
  linkedOrgs : Option (List String) := none
  accountLegality : entityType ≠ .account → accountType = none ∧ privileged = none ∧
    onCall = none ∧ breakGlass = none ∧ serviceOwner = none
  orgLegality : entityType ≠ .org → linkedOrgs = none
  pathLegality : entityType ≠ .watchedPath → configClass = none ∧ approver = none

inductive AuthorizationFact where
  | grant (g : GrantFact)
  | prohibition (p : ProhibitionFact)
  | changeFreeze (fr : ChangeFreezeFact)
  | entityContext (e : EntityContextFact)

def AuthorizationFact.base : AuthorizationFact → AuthorizationFactBase
  | .grant g => g.toAuthorizationFactBase
  | .prohibition p => p.toAuthorizationFactBase
  | .changeFreeze fr => fr.toAuthorizationFactBase
  | .entityContext e => e.toAuthorizationFactBase

def AuthorizationFact.isGrant : AuthorizationFact → Bool
  | .grant _ => true
  | _ => false

/-- The activity tuple facts are bound against. -/
structure AuthorizationActivity where
  track : AuthorizationTrack
  host : Option String := none
  account : Option String := none
  action : Option String := none
  path : Option String := none
  changeType : Option ChangeKind := none
  time : DateTime
  interactive : Bool := false
  trackFields : match track with
    | .account => host ≠ none ∧ account ≠ none ∧ action ≠ none
    | .fim => path ≠ none ∧ changeType ≠ none

/-- The four expectedness components. -/
structure AuthorizationComponents where
  sanctionedOrRoutine : Bool
  inScope : Bool
  actorGenuine : Bool
  policyAllowed : Bool
  deriving DecidableEq

structure AuthorizationContext where
  tenant : Option String := none
  activity : AuthorizationActivity
  facts : List AuthorizationFact := []

end SocTalk.Authorization
