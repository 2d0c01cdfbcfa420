import SocTalk.Lib.Object
import SocTalk.Projection.Reducer

/-! The builders of replay events: what each of them reads of its arguments, what it raises, and
whether the payload that it makes can be stored. -/
namespace SocTalk.Projection
open Py

def textCap : ℕ := 2000

def itemCap : ℕ := 400

def listCap : ℕ := 20

structure ReplayEvent where
  kind : EventKind
  payload : List (String × Obj)
  visibility : Visibility

def ReplayEvent.payloadObj (e : ReplayEvent) : Obj :=
  .dict (e.payload.map fun p => (.str (text p.1), p.2))

namespace ReplayEvents

variable (P : Builtins)

/-! ## Coercions -/

/-- `_clip`. -/
def clip (cap : ℕ) : Obj → M Text
  | .none => .ok []
  | v => (v.toStr P).map (List.take cap)

/-- `_clip_list`. -/
def clipList : Obj → M Obj
  | .list xs => do
    let texts ← (xs.take listCap).mapM (clip P itemCap)
    return .list (texts.map .str)
  | _ => .ok (.list [])

/-- `_f`. -/
def f (v : Obj) : M Obj :=
  match v.toFloat P with
  | .ok x => .ok (.float x)
  | .error .typeError | .error .valueError => .ok .none
  | .error e => .error e

def clipped (cap : ℕ) (v : Obj) : M Obj := (clip P cap v).map .str

/-- `_clip(v, cap) or None`. -/
def clippedOrNone (cap : ℕ) (v : Obj) : M Obj :=
  (clip P cap v).map fun s => if s = [] then .none else .str s

def whole (v : Obj) : M Obj := (v.toInt P).map .int

/-- `int(_f(v) or 0)`. -/
def tokenCount (v : Obj) : M Obj := do
  match ← f P v with
  | .float x => if x = .fin 0 then return .int 0 else return .int (← x.truncate)
  | _ => return .int 0

/-- `_round`. -/
def rounded (digits : ℕ) (v : Obj) : M Obj := do
  match ← f P v with
  | .float x => return .float (x.roundTo digits)
  | _ => return .float (.fin 0)

/-- `v or {}`, which is then asked for its keys. -/
def dictOrEmpty (v : Obj) : M (List (Obj × Obj)) := do
  if ← v.truth then
    match v with
    | .dict kvs => return kvs
    | _ => throw .attributeError
  else return []

def isKey (key : Text) : Obj → Bool
  | .str s => s = key
  | _ => false

/-- `d.get(key)`. -/
def get (d : List (Obj × Obj)) (key : String) : Obj :=
  ((d.find? fun p => isKey (text key) p.1).map Prod.snd).getD .none

/-- `getattr(v, "value", v)`. -/
def valueOf : Obj → Obj
  | .other text number whole truth value => value.getD (.other text number whole truth value)
  | v => v

/-- The payload of `_base`, whose fields are evaluated in order. -/
def event (kind : EventKind) (visibility : Visibility) (fields : List (String × M Obj)) :
    M ReplayEvent := do
  let payload ← fields.mapM fun field => field.2.map fun v => (field.1, v)
  return ⟨kind, ("payload_version", .int 1) :: payload, visibility⟩

/-! ## The builders -/

def policyResolved (triagePolicy deterministicDisposition vetoesChecked vetoesFired plane : Obj) :
    M ReplayEvent := do
  let tp ← dictOrEmpty triagePolicy
  event .policyResolved .customer_safe [
    ("plane", .ok plane),
    ("triage_policy", clippedOrNone P 200 (get tp "id")),
    ("triage_policy_version", .ok (get tp "version")),
    ("deterministic_disposition", clippedOrNone P 100 deterministicDisposition),
    ("vetoes_checked", clipList P vetoesChecked),
    ("vetoes_fired", clipList P vetoesFired)]

def supervisorDecision (decision iteration : Obj) : M ReplayEvent := do
  let d ← dictOrEmpty decision
  event .supervisorDecision .mssp_only [
    ("iteration", whole P iteration),
    ("next_action", clipped P 40 (get d "next_action")),
    ("action_reasoning", clipped P textCap (get d "action_reasoning")),
    ("tp_confidence", f P (get d "tp_confidence"))]

def budgetWarning (tokensUsed tokensBudget dollarsUsed dollarsBudget ratio : Obj) : M ReplayEvent :=
  event .budgetWarning .mssp_only [
    ("tokens_used", tokenCount P tokensUsed),
    ("tokens_budget", tokenCount P tokensBudget),
    ("dollars_used", rounded P 4 dollarsUsed),
    ("dollars_budget", rounded P 4 dollarsBudget),
    ("ratio", rounded P 2 ratio)]

def workerStarted (worker action : Obj) : M ReplayEvent :=
  event .workerStarted .mssp_only [
    ("worker", clipped P 60 worker),
    ("action", clippedOrNone P 40 action)]

/-- An entry of a dictionary under construction. -/
def insert (d : List (Text × ℤ)) (key : Text) (n : ℤ) : List (Text × ℤ) :=
  if d.any fun p => p.1 = key then d.map fun p => if p.1 = key then (key, n) else p
  else d ++ [(key, n)]

/-- `isinstance(v, (int, float))`. -/
def isIntOrFloat : Obj → Bool
  | .bool _ | .int _ | .float _ => true
  | _ => false

def addCount (d : List (Text × ℤ)) (p : Obj × Obj) : M (List (Text × ℤ)) :=
  if isIntOrFloat p.2 then do
    let key ← clip P 60 p.1
    let n ← p.2.toInt P
    return insert d key n
  else return d

def safeCounts (counts : List (Obj × Obj)) : M (List (Text × ℤ)) := counts.foldlM (addCount P) []

def workerResult (worker ok summary counts : Obj) : M ReplayEvent := do
  let entries ← dictOrEmpty counts
  let safe ← safeCounts P entries
  event .workerResult .mssp_only [
    ("worker", clipped P 60 worker),
    ("ok", ok.truth.map .bool),
    ("summary", clippedOrNone P textCap summary),
    ("counts", .ok (.dict (safe.map fun p => (.str p.1, .int p.2))))]

def verdictRendered (verdict : Obj) : M ReplayEvent := do
  let v ← dictOrEmpty verdict
  event .verdictRendered .customer_safe [
    ("decision", clipped P 40 (valueOf (get v "decision"))),
    ("confidence", f P (get v "confidence")),
    ("evidence_strength", clippedOrNone P 40 (get v "evidence_strength")),
    ("potential_impact", clippedOrNone P 40 (get v "potential_impact")),
    ("urgency", clippedOrNone P 40 (get v "urgency")),
    ("threat_assessment", clipped P textCap (get v "threat_assessment")),
    ("key_evidence", clipList P (get v "key_evidence")),
    ("gaps_in_evidence", clipList P (get v "gaps_in_evidence")),
    ("alternative_explanations", clipList P (get v "alternative_explanations")),
    ("recommendation", clipped P textCap (get v "recommendation")),
    ("reasoning_model", clippedOrNone P 100 (get v "reasoning_model"))]

def guardEvaluated (stage decisionIn decisionOut effect fired reasons checklist : Obj) :
    M ReplayEvent :=
  event .guardEvaluated .customer_safe [
    ("stage", clipped P 40 stage),
    ("decision_in", clippedOrNone P 40 decisionIn),
    ("decision_out", clippedOrNone P 40 decisionOut),
    ("effect", clipped P 20 effect),
    ("fired", clipList P fired),
    ("reasons", clipList P reasons),
    ("checklist", clipList P checklist)]

def humanReviewRequested (reason verdictDecision verdictConfidence : Obj) : M ReplayEvent :=
  event .humanReviewRequested .mssp_only [
    ("reason", clippedOrNone P textCap reason),
    ("verdict_decision", clippedOrNone P 40 verdictDecision),
    ("verdict_confidence", f P verdictConfidence)]

def humanDecision (decision : Obj) : M ReplayEvent :=
  event .humanDecision .mssp_only [("decision", clippedOrNone P 40 decision)]

def caseClosed (path reason runId : Obj) : M ReplayEvent :=
  event .autoClosed .customer_safe [
    ("path", clipped P 40 path),
    ("reason", clippedOrNone P textCap reason),
    ("run_id", clippedOrNone P 60 runId)]

/-- A call of a builder. -/
inductive Call where
  | policyResolved (triagePolicy deterministicDisposition vetoesChecked vetoesFired plane : Obj)
  | supervisorDecision (decision iteration : Obj)
  | budgetWarning (tokensUsed tokensBudget dollarsUsed dollarsBudget ratio : Obj)
  | workerStarted (worker action : Obj)
  | workerResult (worker ok summary counts : Obj)
  | verdictRendered (verdict : Obj)
  | guardEvaluated (stage decisionIn decisionOut effect fired reasons checklist : Obj)
  | humanReviewRequested (reason verdictDecision verdictConfidence : Obj)
  | humanDecision (decision : Obj)
  | caseClosed (path reason runId : Obj)

def Call.build : Call → M ReplayEvent
  | .policyResolved tp disposition checked fired plane =>
    ReplayEvents.policyResolved P tp disposition checked fired plane
  | .supervisorDecision decision iteration => ReplayEvents.supervisorDecision P decision iteration
  | .budgetWarning tokensUsed tokensBudget dollarsUsed dollarsBudget ratio =>
    ReplayEvents.budgetWarning P tokensUsed tokensBudget dollarsUsed dollarsBudget ratio
  | .workerStarted worker action => ReplayEvents.workerStarted P worker action
  | .workerResult worker ok summary counts => ReplayEvents.workerResult P worker ok summary counts
  | .verdictRendered verdict => ReplayEvents.verdictRendered P verdict
  | .guardEvaluated stage decisionIn decisionOut effect fired reasons checklist =>
    ReplayEvents.guardEvaluated P stage decisionIn decisionOut effect fired reasons checklist
  | .humanReviewRequested reason decision confidence =>
    ReplayEvents.humanReviewRequested P reason decision confidence
  | .humanDecision decision => ReplayEvents.humanDecision P decision
  | .caseClosed path reason runId => ReplayEvents.caseClosed P path reason runId

/-! ## What an event has to be -/

mutual

/-- Texts and lists within the bounds. -/
def capped : JsonValue → Bool
  | .text s => s.length ≤ textCap
  | .array xs => xs.length ≤ listCap && cappedItems xs
  | .object kvs => cappedPairs kvs
  | _ => true

def cappedItems : List JsonValue → Bool
  | [] => true
  | .text s :: xs => s.length ≤ itemCap && cappedItems xs
  | x :: xs => capped x && cappedItems xs

def cappedPairs : List (Text × JsonValue) → Bool
  | [] => true
  | (k, v) :: kvs => k.length ≤ textCap && capped v && cappedPairs kvs

end

/-- The JSON that `append_event` sends for a value is taken by the column, and within the bounds. -/
def Storable (v : Obj) : Prop := ∃ j, v.toJson P = .ok j ∧ j.stored ∧ capped j

/-- The builder returns an event whose payload can be stored. -/
def Sound (x : M ReplayEvent) : Prop := ∃ e, x = .ok e ∧ Storable P e.payloadObj

/-! ## What its arguments have to be -/

/-- Its text, as far as it is kept, can be stored. -/
def TextFits (cap : ℕ) (v : Obj) : Prop :=
  v = .none ∨ ∃ s, v.toStr P = .ok s ∧ Text.stored (s.take cap)

/-- The texts of a list, as far as they are kept, can be stored. -/
def ListFits (v : Obj) : Prop := ∀ xs, v = .list xs → ∀ x ∈ xs.take listCap, TextFits P itemCap x

/-- A finite number, or nothing that `float` takes for a number. -/
def NumberFits (v : Obj) : Prop :=
  (∃ q, v.toFloat P = .ok (.fin q)) ∨ v.toFloat P = .error .typeError ∨
    v.toFloat P = .error .valueError

/-- An integer that can be written. -/
def Writable (n : ℤ) : Prop := n.natAbs < 10 ^ intMaxStrDigits

def IntFits (v : Obj) : Prop := ∃ n, v.toInt P = .ok n ∧ Writable n

def TokensFit (v : Obj) : Prop :=
  NumberFits P v ∧ ∀ q n, v.toFloat P = .ok (.fin q) → (FloatVal.fin q).truncate = .ok n → Writable n

/-- Every key and every number of the counts can be read; where several numbers share a key, only the
last has to be writable. -/
structure CountsFit (counts : List (Obj × Obj)) : Prop where
  read : ∀ p ∈ counts, isIntOrFloat p.2 → TextFits P 60 p.1 ∧ ∃ n, p.2.toInt P = .ok n
  writable : ∀ before p after, counts = before ++ p :: after → isIntOrFloat p.2 →
    (∀ q ∈ after, isIntOrFloat q.2 → clip P 60 q.1 ≠ clip P 60 p.1) → IntFits P p.2

/-- Falsy, or a dictionary of which this holds. -/
def DictFits (v : Obj) (fits : List (Obj × Obj) → Prop) : Prop := ∃ d, dictOrEmpty v = .ok d ∧ fits d

def Call.Fits : Call → Prop
  | .policyResolved tp disposition checked fired plane =>
    -- The plane and the version are taken over as they are.
    Storable P plane ∧ DictFits tp (fun d => TextFits P 200 (get d "id") ∧
      Storable P (get d "version")) ∧ TextFits P 100 disposition ∧ ListFits P checked ∧
      ListFits P fired
  | .supervisorDecision decision iteration =>
    IntFits P iteration ∧ DictFits decision fun d => TextFits P 40 (get d "next_action") ∧
      TextFits P textCap (get d "action_reasoning") ∧ NumberFits P (get d "tp_confidence")
  | .budgetWarning tokensUsed tokensBudget dollarsUsed dollarsBudget ratio =>
    TokensFit P tokensUsed ∧ TokensFit P tokensBudget ∧ NumberFits P dollarsUsed ∧
      NumberFits P dollarsBudget ∧ NumberFits P ratio
  | .workerStarted worker action => TextFits P 60 worker ∧ TextFits P 40 action
  | .workerResult worker ok summary counts =>
    TextFits P 60 worker ∧ Returns ok.truth ∧ TextFits P textCap summary ∧
      DictFits counts (CountsFit P)
  | .verdictRendered verdict => DictFits verdict fun d =>
    TextFits P 40 (valueOf (get d "decision")) ∧ NumberFits P (get d "confidence") ∧
      (∀ key ∈ ["evidence_strength", "potential_impact", "urgency"], TextFits P 40 (get d key)) ∧
      (∀ key ∈ ["key_evidence", "gaps_in_evidence", "alternative_explanations"],
        ListFits P (get d key)) ∧
      (∀ key ∈ ["threat_assessment", "recommendation"], TextFits P textCap (get d key)) ∧
      TextFits P 100 (get d "reasoning_model")
  | .guardEvaluated stage decisionIn decisionOut effect fired reasons checklist =>
    (∀ v ∈ [stage, decisionIn, decisionOut], TextFits P 40 v) ∧ TextFits P 20 effect ∧
      ∀ v ∈ [fired, reasons, checklist], ListFits P v
  | .humanReviewRequested reason decision confidence =>
    TextFits P textCap reason ∧ TextFits P 40 decision ∧ NumberFits P confidence
  | .humanDecision decision => TextFits P 40 decision
  | .caseClosed path reason runId =>
    TextFits P 40 path ∧ TextFits P textCap reason ∧ TextFits P 60 runId

end ReplayEvents

end SocTalk.Projection
