import SocTalk.TriagePolicy.Registry

/-! Response playbooks: their schema, the vetted capabilities they may name, the registry of a
directory's files, and which investigations a playbook matches. -/
namespace SocTalk.Response
open Py TriagePolicy

/-! ## Capabilities -/

inductive ApprovalPolicy where
  | autonomous
  | analystApprove
  | typedReason
  | escalationRequired
  deriving DecidableEq

inductive CapabilityClass where
  | readLocal
  | readExternalSilent
  | readExternalAttributed
  | writeSandbox
  | writeExternal
  deriving DecidableEq

structure ResponseCapability where
  name : String
  capabilityClass : CapabilityClass
  approval : ApprovalPolicy
  deriving DecidableEq

def responseCapabilities : List ResponseCapability :=
  [⟨"annotate_investigation", .writeSandbox, .autonomous⟩,
    ⟨"notify_webhook", .writeExternal, .autonomous⟩,
    ⟨"external_action", .writeExternal, .typedReason⟩]

/-- `RESPONSE_CAPABILITIES.get(name)`. -/
def capabilityOf (name : String) : Option ResponseCapability :=
  responseCapabilities.find? fun cap => cap.name = name

def onCloseAllowed : List String := ["annotate_investigation"]

def responseStateContract : List String :=
  ["disposition", "worker_disposition", "floor_vetoed", "verdict_confidence", "severity",
    "rule.groups", "rule.ids", "mitre.techniques", "mitre.tactics"]

/-! ## Records -/

/-- One invocation of a vetted capability, under a condition on the envelope. -/
structure ResponseAction where
  capability : String
  condition : Option Value := none
  params : Value := .dict []
  vetted : (capabilityOf capability).isSome = true
  condition_valid : ∀ c ∈ condition, validateConditionOver responseStateContract c = true

structure ResponseMatch where
  ruleGroups : List String := []
  ruleIds : List String := []
  mitreTechniques : List String := []
  mitreTactics : List String := []

structure ResponseBlock where
  onEscalate : List ResponseAction := []
  onClose : List ResponseAction := []
  lengths : onEscalate.length ≤ 8 ∧ onClose.length ≤ 4 := by decide
  close_tier : ∀ action ∈ onClose, action.capability ∈ onCloseAllowed := by simp

structure ResponsePlaybook where
  id : String
  id_length : 1 ≤ id.length ∧ id.length ≤ 128
  version : ℤ := 1
  tenant : String := "*"
  status : Status := .active
  priority : ℤ := 100
  appliesTo : ResponseMatch := {}
  response : ResponseBlock := {}

def ResponsePlaybook.actionsFor (pb : ResponsePlaybook) (disposition : String) :
    List ResponseAction :=
  if disposition = "escalate" then pb.response.onEscalate
  else if disposition = "close_fp" then pb.response.onClose
  else []

/-! ## Dumps -/

def ResponseAction.dump (a : ResponseAction) : Value :=
  .dict [("capability", .str a.capability), ("when", a.condition.getD .none),
    ("params", a.params)]

def ResponseMatch.dump (m : ResponseMatch) : Value :=
  .dict [("rule_groups", dumpTexts m.ruleGroups), ("rule_ids", dumpTexts m.ruleIds),
    ("mitre_techniques", dumpTexts m.mitreTechniques),
    ("mitre_tactics", dumpTexts m.mitreTactics)]

def ResponseBlock.dump (b : ResponseBlock) : Value :=
  .dict [("on_escalate", .list (b.onEscalate.map ResponseAction.dump)),
    ("on_close", .list (b.onClose.map ResponseAction.dump))]

/-- `model_dump()`. -/
def ResponsePlaybook.dump (pb : ResponsePlaybook) : Dict :=
  [("id", .str pb.id), ("version", .int pb.version), ("tenant", .str pb.tenant),
    ("status", .str pb.status.value), ("priority", .int pb.priority),
    ("applies_to", pb.appliesTo.dump), ("response", pb.response.dump)]

/-! ## Validation -/

def parseMapping : Value → Option Value
  | .dict d => some (.dict d)
  | _ => none

def parseOptionalMapping : Value → Option (Option Value)
  | .none => some none
  | v => (parseMapping v).map some

def ResponseAction.modelValidate : Value → Option ResponseAction
  | .dict d => do
    guard (onlyKeys ["capability", "when", "params"] d)
    let capability ← fieldOr d "capability" parseStr none
    let condition ← fieldOr d "when" parseOptionalMapping (some none)
    let params ← fieldOr d "params" parseMapping (some (.dict []))
    if h : (capabilityOf capability).isSome = true ∧
        ∀ c ∈ condition, validateConditionOver responseStateContract c = true then
      some ⟨capability, condition, params, h.1, h.2⟩
    else none
  | _ => none

def ResponseMatch.modelValidate : Value → Option ResponseMatch
  | .dict d => do
    guard (onlyKeys ["rule_groups", "rule_ids", "mitre_techniques", "mitre_tactics"] d)
    return { ruleGroups := ← fieldOr d "rule_groups" parseTexts (some [])
             ruleIds := ← fieldOr d "rule_ids" parseTexts (some [])
             mitreTechniques := ← fieldOr d "mitre_techniques" parseTexts (some [])
             mitreTactics := ← fieldOr d "mitre_tactics" parseTexts (some []) }
  | _ => none

def ResponseBlock.modelValidate : Value → Option ResponseBlock
  | .dict d => do
    guard (onlyKeys ["on_escalate", "on_close"] d)
    let onEscalate ← fieldOr d "on_escalate" (parseList ResponseAction.modelValidate) (some [])
    let onClose ← fieldOr d "on_close" (parseList ResponseAction.modelValidate) (some [])
    if h : (onEscalate.length ≤ 8 ∧ onClose.length ≤ 4) ∧
        ∀ action ∈ onClose, action.capability ∈ onCloseAllowed then
      some ⟨onEscalate, onClose, h.1, h.2⟩
    else none
  | _ => none

/-- `model_validate`; none where the mapping is rejected. -/
def ResponsePlaybook.modelValidate (d : Dict) : Option ResponsePlaybook := do
  guard (onlyKeys ["id", "version", "tenant", "status", "priority", "applies_to", "response"] d)
  let id ← fieldOr d "id" parseStr none
  let version ← fieldOr d "version" parseInt (some 1)
  let tenant ← fieldOr d "tenant" parseStr (some "*")
  let status ← fieldOr d "status" parseStatus (some .active)
  let priority ← fieldOr d "priority" parseInt (some 100)
  let appliesTo ← fieldOr d "applies_to" ResponseMatch.modelValidate (some {})
  let response ← fieldOr d "response" ResponseBlock.modelValidate (some {})
  if h : 1 ≤ id.length ∧ id.length ≤ 128 then
    some
      { id := id, id_length := h, version := version, tenant := tenant, status := status
        priority := priority, appliesTo := appliesTo, response := response }
  else none

/-- The id of an accepted mapping is its own. -/
theorem id_of_modelValidate {d : Dict} {pb : ResponsePlaybook}
    (h : ResponsePlaybook.modelValidate d = some pb) : d.lookup "id" = some (.str pb.id) := by
  unfold ResponsePlaybook.modelValidate at h
  obtain ⟨-, -, h⟩ := Option.bind_eq_some_iff.mp h
  obtain ⟨id, hid, h⟩ := Option.bind_eq_some_iff.mp h
  obtain ⟨version, -, h⟩ := Option.bind_eq_some_iff.mp h
  obtain ⟨tenant, -, h⟩ := Option.bind_eq_some_iff.mp h
  obtain ⟨status, -, h⟩ := Option.bind_eq_some_iff.mp h
  obtain ⟨priority, -, h⟩ := Option.bind_eq_some_iff.mp h
  obtain ⟨appliesTo, -, h⟩ := Option.bind_eq_some_iff.mp h
  obtain ⟨response, -, h⟩ := Option.bind_eq_some_iff.mp h
  split at h
  · cases h
    unfold fieldOr at hid
    cases hlookup : d.lookup "id" with
    | none => simp [hlookup] at hid
    | some v =>
      simp only [hlookup] at hid
      cases v with
      | str s =>
        cases hid
        rfl
      | _ => cases hid
  · cases h

/-! ## Files -/

variable (Y : Yaml)

/-- One document, parsed and fully validated; none where anything is wrong with it. -/
def parseResponsePlaybookText (text : String) : Option ResponsePlaybook := do
  guard (text.utf8ByteSize ≤ maxFileBytes)
  match ← Y.safeLoad text with
  | .dict raw => ResponsePlaybook.modelValidate (setDefault raw "status" (.str "shadow"))
  | _ => none

/-- Of documents with one id, the first. -/
def firstById : List String → List ResponsePlaybook → List ResponsePlaybook
  | _, [] => []
  | seen, pb :: rest =>
    if pb.id ∈ seen then firstById seen rest else pb :: firstById (pb.id :: seen) rest

def sortByPriority (pbs : List ResponsePlaybook) : List ResponsePlaybook :=
  pbs.insertionSort fun p q => p.priority ≤ q.priority

/-- The playbooks of a directory's files, given in the order of their names. -/
def registry (files : List String) : List ResponsePlaybook :=
  sortByPriority (firstById [] (files.filterMap (parseResponsePlaybookText Y)))

theorem nodup_firstById (seen : List String) (pbs : List ResponsePlaybook) :
    ((firstById seen pbs).map (·.id)).Nodup ∧ ∀ pb ∈ firstById seen pbs, pb.id ∉ seen := by
  induction pbs generalizing seen with
  | nil => simp [firstById]
  | cons pb pbs ih =>
    unfold firstById
    split
    · exact ih seen
    · rename_i hnew
      obtain ⟨hnodup, hseen⟩ := ih (pb.id :: seen)
      constructor
      · rw [List.map_cons, List.nodup_cons]
        refine ⟨fun hmem => ?_, hnodup⟩
        obtain ⟨q, hq, hid⟩ := List.mem_map.mp hmem
        exact hseen q hq (by simp [hid])
      · intro q hq
        rcases List.mem_cons.mp hq with rfl | hq
        · exact hnew
        · exact fun hmem => hseen q hq (List.mem_cons_of_mem _ hmem)

theorem mem_sortByPriority {pbs : List ResponsePlaybook} {pb : ResponsePlaybook} :
    pb ∈ sortByPriority pbs ↔ pb ∈ pbs := List.mem_insertionSort _

/-- No two file playbooks have one id. -/
theorem nodup_registry (files : List String) : ((registry Y files).map (·.id)).Nodup := by
  have hperm := List.perm_insertionSort (fun p q : ResponsePlaybook => p.priority ≤ q.priority)
    (firstById [] (files.filterMap (parseResponsePlaybookText Y)))
  exact (hperm.map _).nodup_iff.mpr (nodup_firstById _ _).1

/-! ## Matching -/

/-- What the match rules of a playbook look at. -/
structure Surface where
  ruleGroups : List String
  ruleIds : List String
  tenantIdentifiers : List String
  mitreTechniques : List String
  mitreTactics : List String

def intersects (xs ys : List String) : Bool := ys.any fun y => xs.contains y

/-- Rules are alternatives; a playbook without any matches everything. -/
def playbookMatches (pb : ResponsePlaybook) (t : Surface) : Bool :=
  if pb.tenant ≠ "*" ∧ pb.tenant ∉ t.tenantIdentifiers then false
  else
    let m := pb.appliesTo
    if m.ruleGroups.isEmpty && m.ruleIds.isEmpty && m.mitreTechniques.isEmpty &&
        m.mitreTactics.isEmpty then true
    else
      intersects t.ruleGroups (m.ruleGroups.map lower) || intersects t.ruleIds m.ruleIds ||
        intersects t.mitreTechniques m.mitreTechniques || intersects t.mitreTactics m.mitreTactics

def matchResponsePlaybooks (reg : List ResponsePlaybook) (t : Surface) (status : Status) :
    List ResponsePlaybook :=
  reg.filter fun pb => pb.status = status && playbookMatches pb t

end SocTalk.Response
