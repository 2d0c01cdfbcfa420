import SocTalk.Lib.Json
import SocTalk.Provisioning.Configuration
import SocTalk.TriagePolicy.Gate

/-! Tenant-authored triage policies: their validation, and the texts that a tenant's active ones are
shipped to its worker as. -/
namespace SocTalk.TriagePolicy
open Py Provisioning.Configuration

/-! ## Validation -/

def knownDecisionModules : List String := ["authorization_engine"]
def validActions : List String := SupervisorAction.all.map SupervisorAction.value
def ungrantableActions : List String := ["CLOSE"]
def knownPhases : List String := ["triage", "decide"]
def maxAuthoredBytes : ℕ := 64 * 1024

inductive Invalid where
  /-- The schema's own report. -/
  | schema
  | message (text : String)

mutual

/-- The blanks after commas and colons that `json.dumps` writes by default. -/
def blanks : Value → ℕ
  | .list xs => (xs.length - 1) + blanksItems xs
  | .dict kvs => (kvs.length - 1) + kvs.length + blanksPairs kvs
  | _ => 0

def blanksItems : List Value → ℕ
  | [] => 0
  | x :: xs => blanks x + blanksItems xs

def blanksPairs : List (String × Value) → ℕ
  | [] => 0
  | (_, v) :: kvs => blanks v + blanksPairs kvs

end

/-- `len(json.dumps(v))`. -/
def jsonLength (v : Value) : ℕ := (Json.dumps v).length + blanks v

def isSlugStart (c : Char) : Bool := ('a' ≤ c && c ≤ 'z') || c.isDigit
def isSlugRest (c : Char) : Bool := isSlugStart c || c = '-'

/-- `^[a-z0-9][a-z0-9-]{0,127}$`, whose end also matches before a final line feed. -/
def isSlug (s : String) : Bool :=
  let body := if s.toList.getLast? = some '\n' then s.toList.dropLast else s.toList
  match body with
  | [] => false
  | c :: rest => isSlugStart c && rest.length ≤ 127 && rest.all isSlugRest

def join (names : List String) : String := String.intercalate ", " names

def refuse (bad : Bool) (text : String) : Except Invalid Unit :=
  if bad then .error (.message text) else .ok ()

def orSchema {α : Type} : Option α → Except Invalid α
  | some x => .ok x
  | none => .error .schema

/-- Each phase lists known actions, and never the close. -/
def checkActions : List (String × List String) → Except Invalid Unit
  | [] => .ok ()
  | (phase, actions) :: rest => do
    let bad := actions.filter fun a => !validActions.contains a
    refuse (!bad.isEmpty) ("unknown legal_actions in phase '" ++ phase ++ "': " ++ join bad)
    refuse (actions.any ungrantableActions.contains) ("CLOSE cannot be granted in phase '" ++
      phase ++ "' — leave the phase unconstrained or route terminal decisions through VERDICT")
    checkActions rest

/-- A definition as an author hands it in; its status is forced to shadow. -/
def validateAuthored (raw : Dict) : Except Invalid TriagePolicy := do
  refuse (maxAuthoredBytes < jsonLength (.dict raw)) "triage policy definition exceeds 65536 bytes"
  let pb ← orSchema (TriagePolicy.modelValidate (Dict.set raw "status" (.str "shadow")))
  refuse (!isSlug pb.id) ("id must be a slug: lowercase letters, digits, hyphens " ++
    "(^[a-z0-9][a-z0-9-]\x7b0,127\x7d$)")
  let badPhases := (pb.legalActions.map Prod.fst).filter fun p => !knownPhases.contains p
  refuse (!badPhases.isEmpty)
    ("unknown legal_actions phases (only triage|decide): " ++ join badPhases)
  refuse (pb.priority < filePriorityFloor) ("priority must be >= 60 — built-in protections " ++
    "may not be outranked (got " ++ toString pb.priority ++ ")")
  refuse pb.deterministicDisposition.isSome
    "deterministic_disposition is a built-in-only capability and cannot be authored"
  refuse (isBuiltin pb.id) ("id '" ++ pb.id ++ "' collides with a built-in triage policy")
  let badSteps := pb.requiredSteps.filter fun s => !knownStepNodes.contains s
  refuse (!badSteps.isEmpty) ("unknown required_steps: " ++ join badSteps)
  let badModules := pb.decisionModules.filter fun m => !knownDecisionModules.contains m
  refuse (!badModules.isEmpty) ("unknown decision_modules: " ++ join badModules)
  checkActions pb.legalActions
  return pb

/-! ## Delivery -/

mutual

/-- What a JSON column holds. -/
def isJson : Value → Bool
  | .enum _ => false
  | .float (.fin _) => true
  | .float _ => false
  | .list xs => isJsonItems xs
  | .dict kvs => isJsonPairs kvs
  | _ => true

def isJsonItems : List Value → Bool
  | [] => true
  | x :: xs => isJson x && isJsonItems xs

def isJsonPairs : List (String × Value) → Bool
  | [] => true
  | (_, v) :: kvs => isJson v && isJsonPairs kvs

end

/-- The definition column of a revision. -/
abbrev Definition := { d : Dict // isJsonPairs d = true }

variable (Y : Yaml) (tenantId : String)

/-- The document that a definition is shipped as. -/
def activeDocument (definition : Definition) : Dict :=
  Dict.set (Dict.set definition.val "status" (.str "active")) "tenant" (.str tenantId)

/-- The file of one row: none where it is not active, an error where it would not govern. -/
def renderRow (row : PolicyRevision Definition) : Except Invalid (Option (String × String)) := do
  if row.status ≠ .active then return none
  let _ ← validateAuthored row.definition.val
  let yamlText := Y.safeDump (.dict (activeDocument tenantId row.definition))
  let _ ← orSchema (parseTriagePolicyText Y yamlText)
  return some ("authored-" ++ row.policy ++ ".yaml", yamlText)

/-- The latest revision of each policy, by id. -/
def latestRevisions {D : Type} (log : List (PolicyRevision D)) : List (PolicyRevision D) :=
  (((log.map (·.policy)).dedup).insertionSort (· ≤ ·)).filterMap (latestRevision log)

def renderActiveAuthoredValues (log : List (PolicyRevision Definition)) :
    Except Invalid (List (String × String)) := do
  let rendered ← (latestRevisions log).mapM (renderRow Y tenantId)
  return rendered.filterMap id

theorem of_latestRevisions {D : Type} {log : List (PolicyRevision D)} {row : PolicyRevision D}
    (h : row ∈ latestRevisions log) :
    row ∈ log ∧ latestRevision log row.policy = some row := by
  obtain ⟨id, -, hlatest⟩ := List.mem_filterMap.mp h
  have hmax : row ∈ (log.filter (·.policy = id)).argmax (·.revision) := hlatest
  have hmem := List.argmax_mem hmax
  obtain ⟨hlog, hid⟩ := List.mem_filter.mp hmem
  obtain rfl : row.policy = id := by simpa using hid
  exact ⟨hlog, hlatest⟩

/-! ## What validation gives -/

theorem refuse_eq_ok {bad : Bool} {text : String} {u : Unit} (h : refuse bad text = .ok u) :
    bad = false := by
  cases bad with
  | true => cases h
  | false => rfl

theorem orSchema_eq_ok {α : Type} {x : Option α} {a : α} (h : orSchema x = .ok a) :
    x = some a := by
  cases x with
  | none => cases h
  | some b =>
    cases h
    rfl

theorem checkActions_eq_ok {legal : List (String × List String)} {u : Unit}
    (h : checkActions legal = .ok u) :
    ∀ entry ∈ legal, ∀ a ∈ entry.2, a ∈ validActions ∧ a ≠ "CLOSE" := by
  induction legal with
  | nil => simp
  | cons entry rest ih =>
    obtain ⟨_, hvalid, h⟩ := (bind_eq_ok _ _ _).mp h
    obtain ⟨_, hgranted, h⟩ := (bind_eq_ok _ _ _).mp h
    have hvalid := refuse_eq_ok hvalid
    have hgranted := refuse_eq_ok hgranted
    intro e he a ha
    rcases List.mem_cons.mp he with rfl | he
    · constructor
      · have hempty : e.2.filter (fun a => !validActions.contains a) = [] := by simpa using hvalid
        have hkept := List.filter_eq_nil_iff.mp hempty a ha
        simpa using hkept
      · intro hclose
        have hnone := List.any_eq_false.mp hgranted a ha
        simp [ungrantableActions, hclose] at hnone
    · exact ih h e he a ha

/-- The checks of an accepted definition. -/
structure Accepted (raw : Dict) (p : TriagePolicy) : Prop where
  schema : TriagePolicy.modelValidate (Dict.set raw "status" (.str "shadow")) = some p
  priority : filePriorityFloor ≤ p.priority
  disposition : p.deterministicDisposition = none
  builtin : isBuiltin p.id = false
  actions : ∀ entry ∈ p.legalActions, ∀ a ∈ entry.2, a ∈ validActions ∧ a ≠ "CLOSE"

theorem accepted_of_validateAuthored {raw : Dict} {p : TriagePolicy}
    (h : validateAuthored raw = .ok p) : Accepted raw p := by
  obtain ⟨_, -, h⟩ := (bind_eq_ok _ _ _).mp h
  obtain ⟨pb, hschema, h⟩ := (bind_eq_ok _ _ _).mp h
  obtain ⟨_, -, h⟩ := (bind_eq_ok _ _ _).mp h
  obtain ⟨_, -, h⟩ := (bind_eq_ok _ _ _).mp h
  obtain ⟨_, hpriority, h⟩ := (bind_eq_ok _ _ _).mp h
  obtain ⟨_, hdisposition, h⟩ := (bind_eq_ok _ _ _).mp h
  obtain ⟨_, hbuiltin, h⟩ := (bind_eq_ok _ _ _).mp h
  obtain ⟨_, -, h⟩ := (bind_eq_ok _ _ _).mp h
  obtain ⟨_, -, h⟩ := (bind_eq_ok _ _ _).mp h
  obtain ⟨_, hactions, h⟩ := (bind_eq_ok _ _ _).mp h
  cases (pure_eq_ok _ _).mp h
  constructor
  · exact orSchema_eq_ok hschema
  · have hfloor := refuse_eq_ok hpriority
    simpa using hfloor
  · have hnone := refuse_eq_ok hdisposition
    simpa using hnone
  · exact refuse_eq_ok hbuiltin
  · exact checkActions_eq_ok hactions

end SocTalk.TriagePolicy
