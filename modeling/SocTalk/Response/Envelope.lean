import SocTalk.Lib.Value

/-! The disposition envelope: what a completed run publishes to playbooks and connectors. -/
namespace SocTalk.Response
open Py

def envelopeVersion : ℤ := 2

/-- One alert of the investigation joined with one of its source events. -/
structure EvidenceRow where
  ruleId : Option String := none
  severity : ℤ := 0
  initialIocs : Value := .none
  mitre : Value := .none
  ruleGroups : Value := .none
  entities : Value := .none

/-- What a completion says beside its evidence. -/
structure Verdict where
  workerDisposition : Option String
  effectiveDisposition : String
  serverFloorVeto : Option String := none
  summary : Option String := none
  confidence : Option FloatVal := none
  enrichments : Option Dict := none

def optional {α : Type} (f : α → Value) : Option α → Value
  | some x => f x
  | none => .none

/-- `v or []`, iterated. -/
def items (v : Value) : M (List Value) := (v.orElse (.list [])).iter

/-- The values in order, each once. -/
def addTexts (target : List String) (texts : List String) : List String :=
  texts.foldl (fun acc s => if s = "" ∨ s ∈ acc then acc else acc ++ [s]) target

def addValues (target : List Value) (values : List Value) : List Value :=
  values.foldl (fun acc v => if acc.any v.eq then acc else acc ++ [v]) target

/-- The texts under a plural key and its legacy singular; a value that is no list stands for
itself. -/
def mitreTexts (mitre : Value) (keys : List String) : List String :=
  match mitre with
  | .dict d => keys.flatMap fun key =>
    match Dict.get d key with
    | .none => []
    | .list xs => xs.map Value.toText
    | v => [v.toText]
  | _ => []

/-- What the rows add up to. -/
structure Facets where
  severity : ℤ := 0
  ruleIds : List String := []
  ruleGroups : List String := []
  mitreTechniques : List String := []
  mitreTactics : List String := []
  mitreNames : List String := []
  entities : List Value := []
  iocs : List Value := []

def Facets.add (f : Facets) (a : EvidenceRow) : M Facets := do
  let groups ← items a.ruleGroups
  let entities ← items a.entities
  let iocs ← items a.initialIocs
  let addGroup := fun acc (g : Value) =>
    if lower g.toText ∈ acc then acc else acc ++ [lower g.toText]
  return { severity := max f.severity a.severity
           ruleIds := addTexts f.ruleIds a.ruleId.toList
           ruleGroups := groups.foldl addGroup f.ruleGroups
           mitreTechniques := addTexts f.mitreTechniques (mitreTexts a.mitre ["ids", "id"])
           mitreTactics := addTexts f.mitreTactics (mitreTexts a.mitre ["tactics", "tactic"])
           mitreNames := addTexts f.mitreNames (mitreTexts a.mitre ["techniques", "technique"])
           entities := addValues f.entities entities
           iocs := addValues f.iocs iocs }

/-- The vetoes of the worker's own floor ride in the enrichments. -/
def workerVetoes (enrichments : Option Dict) : M (List String) := do
  match Dict.get (enrichments.getD []) "safety_floor" with
  | .dict floor => return (← items (Dict.get floor "vetoes")).map Value.toText
  | _ => return []

structure Envelope where
  tenantId : String
  investigationId : String
  runId : String
  verdict : Verdict
  workerVetoes : List String
  facets : Facets

def buildEnvelope (tenantId investigationId runId : String) (verdict : Verdict)
    (rows : List EvidenceRow) : M Envelope := do
  let facets ← rows.foldlM Facets.add {}
  let vetoes ← workerVetoes verdict.enrichments
  return ⟨tenantId, investigationId, runId, verdict, vetoes, facets⟩

def texts (xs : List String) : Value := .list (xs.map .str)

/-- The envelope as the payload carries it. -/
def Envelope.dump (e : Envelope) : Dict :=
  [("version", .int envelopeVersion), ("tenant_id", .str e.tenantId),
    ("investigation_id", .str e.investigationId), ("run_id", .str e.runId),
    ("disposition", .str e.verdict.effectiveDisposition),
    ("worker_disposition", optional .str e.verdict.workerDisposition),
    ("floor", .dict [("server_veto", optional .str e.verdict.serverFloorVeto),
      ("worker_vetoes", texts e.workerVetoes)]),
    ("verdict", .dict [("summary", optional .str e.verdict.summary),
      ("confidence", optional .float e.verdict.confidence)]),
    ("severity", .int e.facets.severity),
    ("rule", .dict [("ids", texts e.facets.ruleIds), ("groups", texts e.facets.ruleGroups)]),
    ("mitre", .dict [("techniques", texts e.facets.mitreTechniques),
      ("tactics", texts e.facets.mitreTactics),
      ("technique_names", texts e.facets.mitreNames)]),
    ("entities", .list (e.facets.entities.take 64)), ("iocs", .list (e.facets.iocs.take 64))]

/-- The fields that a condition may refer to. -/
def conditionContext (e : Envelope) : Dict :=
  [("disposition", .str e.verdict.effectiveDisposition),
    ("worker_disposition", optional .str e.verdict.workerDisposition),
    ("floor_vetoed", .bool ((optional .str e.verdict.serverFloorVeto).truthy ||
      !e.workerVetoes.isEmpty)),
    ("verdict_confidence", optional .float e.verdict.confidence),
    ("severity", .int e.facets.severity),
    ("rule", .dict [("groups", texts e.facets.ruleGroups), ("ids", texts e.facets.ruleIds)]),
    ("mitre", .dict [("techniques", texts e.facets.mitreTechniques),
      ("tactics", texts e.facets.mitreTactics)])]

end SocTalk.Response
