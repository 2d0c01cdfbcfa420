import SocTalk.TriagePolicy.Guard

/-! The triage-policy schema: the records that a mapping is validated into, and their dumps. -/
namespace SocTalk.TriagePolicy
open Py

set_option linter.dupNamespace false

def gatherAuthorizationContext : String := "gather_authorization_context"
def knownStepNodes : List String := [gatherAuthorizationContext]
def closeOperational : String := "close_operational"
def knownDispositions : List String := [closeOperational]

/-! ## Author-time validation of conditions -/

def stateContract : List String :=
  ["authz.class", "authz.in_scope", "authz.sanctioned_or_routine", "authz.actor_genuine",
    "authz.policy_allowed", "verdict", "verdict_confidence", "asset.data_classification",
    "asset.environment", "asset.criticality", "enrichment.ioc", "correlation.active_incident"]

def comparisons : List String := ["==", "!=", "<", "<=", ">", ">="]
def allowedOperators : List String := "var" :: comparisons ++ ["and", "or", "!", "!!"] ++ ["in"]
def maxDepth : ℕ := 8
def maxNodes : ℕ := 64
def maxListLiteral : ℕ := 32

def isScalar : Value → Bool
  | .list _ => false
  | .dict _ => false
  | _ => true

/-- The operator takes this many arguments. -/
def arityOk (op : String) (n : ℕ) : Bool :=
  if op ∈ comparisons ∨ op = "in" then n = 2
  else if op = "!" ∨ op = "!!" then n = 1
  else true

section Walk

variable (contract : List String)

mutual

/-- The count of nodes after the walk; none where the condition is refused. -/
def walkValidate (depth counter : ℕ) : Value → Option ℕ
  | .dict [(op, .list args)] => do
    guard (counter < maxNodes ∧ depth ≤ maxDepth ∧ op ∈ allowedOperators ∧ op ≠ "var")
    guard (arityOk op args.length)
    walkItems (depth + 1) (counter + 1) args
  | .dict [("var", .str field)] => do
    guard (counter < maxNodes ∧ depth ≤ maxDepth ∧ field ∈ contract)
    return counter + 1
  | .dict [(op, arg)] => do
    guard (counter < maxNodes ∧ depth ≤ maxDepth ∧ op ∈ allowedOperators ∧ op ≠ "var")
    guard (arityOk op 1)
    walkValidate (depth + 1) (counter + 1) arg
  | .dict _ => none
  | .list xs => do
    guard (counter < maxNodes ∧ depth ≤ maxDepth)
    guard (xs.length ≤ maxListLiteral ∧ xs.all isScalar)
    return counter + 1
  | _ => do
    guard (counter < maxNodes ∧ depth ≤ maxDepth)
    return counter + 1

def walkItems (depth counter : ℕ) : List Value → Option ℕ
  | [] => return counter
  | x :: xs => do walkItems depth (← walkValidate depth counter x) xs

end

/-- A mapping at its root, an allowlisted operator tree over the contract's fields below. -/
def validateConditionOver (condition : Value) : Bool :=
  condition.isDict && (walkValidate contract 0 0 condition).isSome

end Walk

def validateCondition : Value → Bool := validateConditionOver stateContract

example : validateCondition
    (.dict [("and", .list [.dict [("==", .list [.dict [("var", .str "verdict")], .str "close"])],
      .dict [("in", .list [.str "x", .list [.str "x", .str "y"]])]])]) = true := by decide

/-! ## Records -/

inductive GuardrailTarget where
  | escalate
  | needsMoreInfo
  | humanReview
  deriving DecidableEq

def GuardrailTarget.value : GuardrailTarget → String
  | .escalate => "escalate"
  | .needsMoreInfo => "needs_more_info"
  | .humanReview => "human_review"

structure Guardrail where
  condition : Value
  effect : Effect
  target : GuardrailTarget
  reason : String
  reason_length : 1 ≤ reason.length ∧ reason.length ≤ 512
  condition_valid : validateCondition condition = true
  /-- An interrupt routes to human review and nothing else does. -/
  legal : effect = .interrupt ↔ target = .humanReview

structure TriagePolicyMatch where
  ruleGroups : List String := []
  ruleIds : List String := []
  authorizationTracks : List String := []
  deriving DecidableEq

inductive Status where
  | active
  | shadow
  deriving DecidableEq

def Status.value : Status → String
  | .active => "active"
  | .shadow => "shadow"

structure TriagePolicy where
  id : String
  id_length : 1 ≤ id.length ∧ id.length ≤ 128
  version : ℤ := 1
  tenant : String := "*"
  status : Status := .active
  priority : ℤ := 100
  appliesTo : TriagePolicyMatch := {}
  requiredSteps : List String := []
  decisionModules : List String := []
  deterministicDisposition : Option String := none
  legalActions : List (String × List String) := []
  closeSignoffDataClasses : List String := []
  guardrails : List Guardrail := []
  guardrails_length : guardrails.length ≤ 16 := by decide

/-! ## Dumps -/

def dumpTexts (xs : List String) : Value := .list (xs.map .str)

def Guardrail.dump (r : Guardrail) : Value :=
  .dict [("when", r.condition), ("effect", .str r.effect.value), ("to", .str r.target.value),
    ("reason", .str r.reason)]

def TriagePolicyMatch.dump (m : TriagePolicyMatch) : Value :=
  .dict [("rule_groups", dumpTexts m.ruleGroups), ("rule_ids", dumpTexts m.ruleIds),
    ("authorization_tracks", dumpTexts m.authorizationTracks)]

/-- `model_dump()`. -/
def TriagePolicy.dump (p : TriagePolicy) : Dict :=
  [("id", .str p.id), ("version", .int p.version), ("tenant", .str p.tenant),
    ("status", .str p.status.value), ("priority", .int p.priority),
    ("applies_to", p.appliesTo.dump), ("required_steps", dumpTexts p.requiredSteps),
    ("decision_modules", dumpTexts p.decisionModules),
    ("deterministic_disposition", match p.deterministicDisposition with
      | some d => .str d
      | none => .none),
    ("legal_actions", .dict (p.legalActions.map fun kv => (kv.1, dumpTexts kv.2))),
    ("close_signoff_data_classes", dumpTexts p.closeSignoffDataClasses),
    ("guardrails", .list (p.guardrails.map Guardrail.dump))]

/-! ## Validation -/

def parseStr : Value → Option String
  | .str s => some s
  | _ => none

/-- Integers, Booleans, whole floats and digits. -/
def parseInt : Value → Option ℤ
  | .int n => some n
  | .bool b => some (if b then 1 else 0)
  | .float (.fin q) => if q.den = 1 then some q.num else none
  | .str s => (int s).toOption
  | _ => none

def parseList {α : Type} (parse : Value → Option α) : Value → Option (List α)
  | .list xs => xs.mapM parse
  | _ => none

def parseTexts : Value → Option (List String) := parseList parseStr

def parseOptionalStr : Value → Option (Option String)
  | .none => some none
  | v => (parseStr v).map some

def parseLegalActions : Value → Option (List (String × List String))
  | .dict kvs => kvs.mapM fun kv => (parseTexts kv.2).map fun actions => (kv.1, actions)
  | _ => none

/-- A field of a mapping: its default where the key is missing. -/
def fieldOr {α : Type} (d : Dict) (k : String) (parse : Value → Option α) (default : Option α) :
    Option α :=
  match d.lookup k with
  | none => default
  | some v => parse v

/-- No key beside the schema's. -/
def onlyKeys (names : List String) (d : Dict) : Bool := d.all fun kv => names.contains kv.1

def parseEffect : Value → Option Effect
  | .str s => [Effect.override, .interrupt].find? fun e => e.value = s
  | _ => none

def parseTarget : Value → Option GuardrailTarget
  | .str s => [GuardrailTarget.escalate, .needsMoreInfo, .humanReview].find? fun t => t.value = s
  | _ => none

def parseStatus : Value → Option Status
  | .str s => [Status.active, .shadow].find? fun t => t.value = s
  | _ => none

def Guardrail.modelValidate : Value → Option Guardrail
  | .dict d => do
    guard (onlyKeys ["when", "effect", "to", "reason"] d)
    let condition ← d.lookup "when"
    let effect ← fieldOr d "effect" parseEffect none
    let target ← fieldOr d "to" parseTarget none
    let reason ← fieldOr d "reason" parseStr none
    if h : (1 ≤ reason.length ∧ reason.length ≤ 512) ∧ validateCondition condition = true ∧
        (effect = .interrupt ↔ target = .humanReview) then
      some ⟨condition, effect, target, reason, h.1, h.2.1, h.2.2⟩
    else none
  | _ => none

def TriagePolicyMatch.modelValidate : Value → Option TriagePolicyMatch
  | .dict d => do
    guard (onlyKeys ["rule_groups", "rule_ids", "authorization_tracks"] d)
    return { ruleGroups := ← fieldOr d "rule_groups" parseTexts (some [])
             ruleIds := ← fieldOr d "rule_ids" parseTexts (some [])
             authorizationTracks := ← fieldOr d "authorization_tracks" parseTexts (some []) }
  | _ => none

def TriagePolicy.fieldNames : List String :=
  ["id", "version", "tenant", "status", "priority", "applies_to", "required_steps",
    "decision_modules", "deterministic_disposition", "legal_actions",
    "close_signoff_data_classes", "guardrails"]

/-- `model_validate`; none where the mapping is rejected. -/
def TriagePolicy.modelValidate (d : Dict) : Option TriagePolicy := do
  guard (onlyKeys TriagePolicy.fieldNames d)
  let id ← fieldOr d "id" parseStr none
  let version ← fieldOr d "version" parseInt (some 1)
  let tenant ← fieldOr d "tenant" parseStr (some "*")
  let status ← fieldOr d "status" parseStatus (some .active)
  let priority ← fieldOr d "priority" parseInt (some 100)
  let appliesTo ← fieldOr d "applies_to" TriagePolicyMatch.modelValidate (some {})
  let requiredSteps ← fieldOr d "required_steps" parseTexts (some [])
  let decisionModules ← fieldOr d "decision_modules" parseTexts (some [])
  let disposition ← fieldOr d "deterministic_disposition" parseOptionalStr (some none)
  let legalActions ← fieldOr d "legal_actions" parseLegalActions (some [])
  let signoff ← fieldOr d "close_signoff_data_classes" parseTexts (some [])
  let guardrails ← fieldOr d "guardrails" (parseList Guardrail.modelValidate) (some [])
  if h : (1 ≤ id.length ∧ id.length ≤ 128) ∧ guardrails.length ≤ 16 then
    some
      { id := id, id_length := h.1, version := version, tenant := tenant, status := status
        priority := priority, appliesTo := appliesTo, requiredSteps := requiredSteps
        decisionModules := decisionModules, deterministicDisposition := disposition
        legalActions := legalActions, closeSignoffDataClasses := signoff
        guardrails := guardrails, guardrails_length := h.2 }
  else none

/-- Each field of an accepted mapping is read from its own key. -/
theorem legalActions_of_modelValidate {d : Dict} {p : TriagePolicy}
    (h : TriagePolicy.modelValidate d = some p) :
    fieldOr d "legal_actions" parseLegalActions (some []) = some p.legalActions := by
  unfold TriagePolicy.modelValidate at h
  obtain ⟨-, -, h⟩ := Option.bind_eq_some_iff.mp h
  obtain ⟨id, -, h⟩ := Option.bind_eq_some_iff.mp h
  obtain ⟨version, -, h⟩ := Option.bind_eq_some_iff.mp h
  obtain ⟨tenant, -, h⟩ := Option.bind_eq_some_iff.mp h
  obtain ⟨status, -, h⟩ := Option.bind_eq_some_iff.mp h
  obtain ⟨priority, -, h⟩ := Option.bind_eq_some_iff.mp h
  obtain ⟨appliesTo, -, h⟩ := Option.bind_eq_some_iff.mp h
  obtain ⟨requiredSteps, -, h⟩ := Option.bind_eq_some_iff.mp h
  obtain ⟨decisionModules, -, h⟩ := Option.bind_eq_some_iff.mp h
  obtain ⟨disposition, -, h⟩ := Option.bind_eq_some_iff.mp h
  obtain ⟨legalActions, hlegal, h⟩ := Option.bind_eq_some_iff.mp h
  obtain ⟨signoff, -, h⟩ := Option.bind_eq_some_iff.mp h
  obtain ⟨guardrails, -, h⟩ := Option.bind_eq_some_iff.mp h
  split at h
  · cases h
    exact hlegal
  · cases h

end SocTalk.TriagePolicy
