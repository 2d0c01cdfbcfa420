import Mathlib.Data.List.Sort
import SocTalk.TriagePolicy.Models

/-! The triage-policy registry: the built-ins, the files of a process, and which policy governs an
investigation. -/
namespace SocTalk.TriagePolicy
open Py

/-! ## Built-ins -/

/-- The dual-use class: host-authentication activity that is routine under a covering record and
an incident without one. -/
def privilegedExecTriagePolicy : TriagePolicy where
  id := "dual-use-privileged-exec"
  id_length := by decide
  version := 2
  priority := 10
  appliesTo := { ruleGroups := ["sudo", "su"], authorizationTracks := ["account"] }
  requiredSteps := [gatherAuthorizationContext]
  decisionModules := ["authorization_engine"]
  legalActions :=
    [("triage", ["ENRICH", "CONTEXTUALIZE", "INVESTIGATE", "VERDICT"]),
      ("decide", ["ENRICH", "CONTEXTUALIZE", "INVESTIGATE", "VERDICT"])]
  closeSignoffDataClasses := ["pci"]

/-- The agent-health class: closed as operational without a model's look, where nothing vetoes. -/
def agentHealthTriagePolicy : TriagePolicy where
  id := "agent-health-operational"
  id_length := by decide
  priority := 50
  appliesTo := { ruleGroups := ["agent_flooding", "agent_buffer"], ruleIds := ["202"] }
  deterministicDisposition := some closeOperational

def builtinTriagePolicies : List TriagePolicy :=
  [privilegedExecTriagePolicy, agentHealthTriagePolicy]

def isBuiltin (id : String) : Bool := builtinTriagePolicies.any fun b => id = b.id

/-! ## Files -/

/-- Files below this priority could outrank a built-in. -/
def filePriorityFloor : ℤ := 60
def maxFileBytes : ℕ := 64 * 1024

/-- `d.setdefault(k, v)`. -/
def setDefault (d : Dict) (k : String) (v : Value) : Dict :=
  if (d.lookup k).isSome then d else d ++ [(k, v)]

/-- The YAML reader and writer. -/
structure Yaml where
  safeLoad : String → Option Value
  safeDump : Value → String

variable (Y : Yaml)

/-- One document, parsed and fully validated; none where anything is wrong with it. -/
def parseTriagePolicyText (text : String) : Option TriagePolicy := do
  guard (text.utf8ByteSize ≤ maxFileBytes)
  match ← Y.safeLoad text with
  | .dict raw =>
    let pb ← TriagePolicy.modelValidate (setDefault raw "status" (.str "shadow"))
    guard (filePriorityFloor ≤ pb.priority)
    guard (pb.deterministicDisposition = none)
    return pb
  | _ => none

/-- The policies of the directory's files, in the order of their names. A file that is rejected, is
scoped to another tenant or takes a built-in's id is skipped. -/
def loadFileTriagePolicies (tenants : List String) (files : List String) : List TriagePolicy :=
  (files.filterMap (parseTriagePolicyText Y)).filter fun pb =>
    (pb.tenant = "*" || tenants.contains pb.tenant) && !isBuiltin pb.id

/-- `sort(key=lambda p: p.priority)`, which is stable. -/
def sortByPriority (ps : List TriagePolicy) : List TriagePolicy :=
  ps.insertionSort fun p q => p.priority ≤ q.priority

def registry (tenants : List String) (files : List String) : List TriagePolicy :=
  sortByPriority (builtinTriagePolicies ++ loadFileTriagePolicies Y tenants files)

/-! ## Matching -/

def alertsOf (investigation : Value) : M (List Dict) := do
  let alerts ← ((← investigation.get "alerts").orElse (.list [])).iter
  return alerts.filterMap fun
    | .dict alert => some alert
    | _ => none

def alertRuleGroups (investigation : Value) : M (List String) := do
  let groups ← (← alertsOf investigation).mapM fun alert =>
    ((Dict.get alert "rule_groups").orElse (.list [])).iter
  return groups.flatten.map fun g => lower g.toText

def alertRuleIds (investigation : Value) : M (List String) := do
  return ((← alertsOf investigation).filter fun alert => (Dict.get alert "rule_id").truthy).map
    fun alert => (Dict.get alert "rule_id").toText

def authorizationTrack (investigation : Value) : M (Option String) := do
  match ← investigation.get "authorization_context" with
  | .dict ctx =>
    match Dict.get ctx "activity" with
    | .dict activity =>
      let track := Dict.get activity "track"
      return if track.truthy then some track.toText else none
    | _ => return none
  | _ => return none

/-- What a policy's match rules look at. -/
structure Traits where
  groups : List String
  ruleIds : List String
  track : Option String

def traitsOf (investigation : Value) : M Traits := do
  return ⟨← alertRuleGroups investigation, ← alertRuleIds investigation,
    ← authorizationTrack investigation⟩

def TriagePolicy.matchesTraits (pb : TriagePolicy) (t : Traits) : Bool :=
  pb.appliesTo.ruleGroups.any (fun g => t.groups.contains (lower g)) ||
    pb.appliesTo.ruleIds.any (fun i => t.ruleIds.contains i) ||
    t.track.any fun track => pb.appliesTo.authorizationTracks.contains track

/-- The first active policy of the registry that matches. -/
def matchTriagePolicy (reg : List TriagePolicy) (investigation : Value) :
    M (Option TriagePolicy) := do
  let t ← traitsOf investigation
  return reg.find? fun pb => pb.status = .active && pb.matchesTraits t

def matchShadowTriagePolicies (reg : List TriagePolicy) (investigation : Value) :
    M (List TriagePolicy) := do
  let t ← traitsOf investigation
  return reg.filter fun pb => pb.status = .shadow && pb.matchesTraits t

/-! ## What a file may not do -/

variable {Y}

/-- An accepted document stands below the built-ins and closes nothing on its own. -/
theorem of_parseTriagePolicyText {text : String} {p : TriagePolicy}
    (h : parseTriagePolicyText Y text = some p) : ∃ raw, Y.safeLoad text = some (.dict raw) ∧
      TriagePolicy.modelValidate (setDefault raw "status" (.str "shadow")) = some p ∧
      filePriorityFloor ≤ p.priority ∧ p.deterministicDisposition = none := by
  unfold parseTriagePolicyText at h
  obtain ⟨-, -, h⟩ := Option.bind_eq_some_iff.mp h
  obtain ⟨v, hload, h⟩ := Option.bind_eq_some_iff.mp h
  cases v with
  | dict raw =>
    obtain ⟨pb, hvalid, h⟩ := Option.bind_eq_some_iff.mp h
    obtain ⟨_, hpriority, h⟩ := Option.bind_eq_some_iff.mp h
    obtain ⟨_, hdisposition, h⟩ := Option.bind_eq_some_iff.mp h
    cases h
    exact ⟨raw, hload, hvalid, of_guard_eq_some hpriority, of_guard_eq_some hdisposition⟩
  | _ => cases h
where
  of_guard_eq_some {p : Prop} [Decidable p] {u : Unit} (h : guard p = some u) : p := by
    by_contra hp
    rw [guard, if_neg hp] at h
    cases h

theorem mem_loadFileTriagePolicies {tenants files : List String} {p : TriagePolicy}
    (h : p ∈ loadFileTriagePolicies Y tenants files) :
    (∃ text ∈ files, parseTriagePolicyText Y text = some p) ∧ isBuiltin p.id = false := by
  unfold loadFileTriagePolicies at h
  rw [List.mem_filter, List.mem_filterMap] at h
  obtain ⟨htext, haccepted⟩ := h
  have hid : isBuiltin p.id = false := by simp_all
  exact ⟨htext, hid⟩

theorem loaded_priority {tenants files : List String} {p : TriagePolicy}
    (h : p ∈ loadFileTriagePolicies Y tenants files) : filePriorityFloor ≤ p.priority := by
  obtain ⟨⟨text, -, hparse⟩, -⟩ := mem_loadFileTriagePolicies h
  obtain ⟨raw, -, -, hpriority, -⟩ := of_parseTriagePolicyText hparse
  exact hpriority

theorem loaded_disposition {tenants files : List String} {p : TriagePolicy}
    (h : p ∈ loadFileTriagePolicies Y tenants files) : p.deterministicDisposition = none := by
  obtain ⟨⟨text, -, hparse⟩, -⟩ := mem_loadFileTriagePolicies h
  obtain ⟨raw, -, -, -, hdisposition⟩ := of_parseTriagePolicyText hparse
  exact hdisposition

theorem mem_sortByPriority {ps : List TriagePolicy} {p : TriagePolicy} :
    p ∈ sortByPriority ps ↔ p ∈ ps := List.mem_insertionSort _

/-- A policy before all others in rank stays in front. -/
theorem sortByPriority_cons {p : TriagePolicy} {ps : List TriagePolicy}
    (h : ∀ q ∈ ps, p.priority ≤ q.priority) : sortByPriority (p :: ps) = p :: sortByPriority ps := by
  unfold sortByPriority
  rw [List.insertionSort_cons]
  cases hs : ps.insertionSort fun p q => p.priority ≤ q.priority with
  | nil => rfl
  | cons q qs =>
    have hq : q ∈ ps := by
      rw [← List.mem_insertionSort (fun p q : TriagePolicy => p.priority ≤ q.priority), hs]
      exact List.mem_cons_self
    exact List.orderedInsert_cons_of_le _ _ (h q hq)

/-- The built-ins come first, in their own order. -/
theorem registry_eq (tenants files : List String) :
    registry Y tenants files =
      builtinTriagePolicies ++ sortByPriority (loadFileTriagePolicies Y tenants files) := by
  have hfloor := fun q (hq : q ∈ loadFileTriagePolicies Y tenants files) => loaded_priority hq
  unfold registry builtinTriagePolicies
  rw [List.cons_append, sortByPriority_cons, List.cons_append, sortByPriority_cons]
  · rfl
  · intro q hq
    have := hfloor q hq
    have hrank : agentHealthTriagePolicy.priority = 50 := rfl
    unfold filePriorityFloor at this
    omega
  · intro q hq
    have hrank : privilegedExecTriagePolicy.priority = 10 := rfl
    rcases List.mem_cons.mp hq with rfl | hq
    · decide
    · have := hfloor q hq
      unfold filePriorityFloor at this
      omega

/-- The registry holds built-ins and accepted files. -/
theorem mem_registry {tenants files : List String} {p : TriagePolicy} :
    p ∈ registry Y tenants files ↔
      p ∈ builtinTriagePolicies ∨ p ∈ loadFileTriagePolicies Y tenants files := by
  rw [registry_eq, List.mem_append, mem_sortByPriority]

end SocTalk.TriagePolicy
