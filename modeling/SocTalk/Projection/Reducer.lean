import Mathlib.Data.List.DropRight
import SocTalk.Lib.Jsonb

/-! The case projection and the reducer that folds the events of an investigation into it. -/
namespace SocTalk.Projection

open Py

inductive EventKind where
  | alertIngested
  | externalSignal
  | hypothesisUpdated
  | iocAdded
  | iocRemoved
  | assetLinked
  | assetUnlinked
  | timelineEntry
  | directiveAdded
  | directiveRemoved
  | policyBound
  | statusChanged
  | confidenceRecalibrated
  | aiMessage
  | toolCallStarted
  | toolResult
  | proposalCreated
  | proposalApproved
  | proposalRejected
  | proposalExecuted
  | proposalFailed
  | analystMessage
  | analystCorrection
  | analystCommand
  | reopened
  | autoClosed
  | budgetWarning
  | budgetHalt
  | budgetUnlock
  | policyResolved
  | supervisorDecision
  | workerStarted
  | workerResult
  | verdictRendered
  | guardEvaluated
  | humanReviewRequested
  | humanDecision
  deriving DecidableEq

/-- `EventKind(kind)`; `none` where the constructor raises `ValueError`. -/
def EventKind.ofValue? : String → Option EventKind
  | "alert_ingested" => some .alertIngested
  | "external_signal" => some .externalSignal
  | "hypothesis_updated" => some .hypothesisUpdated
  | "ioc_added" => some .iocAdded
  | "ioc_removed" => some .iocRemoved
  | "asset_linked" => some .assetLinked
  | "asset_unlinked" => some .assetUnlinked
  | "timeline_entry" => some .timelineEntry
  | "directive_added" => some .directiveAdded
  | "directive_removed" => some .directiveRemoved
  | "policy_bound" => some .policyBound
  | "status_changed" => some .statusChanged
  | "confidence_recalibrated" => some .confidenceRecalibrated
  | "ai_message" => some .aiMessage
  | "tool_call_started" => some .toolCallStarted
  | "tool_result" => some .toolResult
  | "proposal_created" => some .proposalCreated
  | "proposal_approved" => some .proposalApproved
  | "proposal_rejected" => some .proposalRejected
  | "proposal_executed" => some .proposalExecuted
  | "proposal_failed" => some .proposalFailed
  | "analyst_message" => some .analystMessage
  | "analyst_correction" => some .analystCorrection
  | "analyst_command" => some .analystCommand
  | "reopened" => some .reopened
  | "auto_closed" => some .autoClosed
  | "budget_warning" => some .budgetWarning
  | "budget_halt" => some .budgetHalt
  | "budget_unlock" => some .budgetUnlock
  | "policy_resolved" => some .policyResolved
  | "supervisor_decision" => some .supervisorDecision
  | "worker_started" => some .workerStarted
  | "worker_result" => some .workerResult
  | "verdict_rendered" => some .verdictRendered
  | "guard_evaluated" => some .guardEvaluated
  | "human_review_requested" => some .humanReviewRequested
  | "human_decision" => some .humanDecision
  | _ => none

inductive Visibility where
  | mssp_only
  | customer_safe
  | system
  deriving DecidableEq

/-- A row of `investigation_events`; its payload has been through the column. -/
structure Event where
  seq : ℕ
  kind : String
  payload : Dict
  visibility : Visibility
  stored : (Value.dict payload).Stored

namespace Event

def kind? (e : Event) : Option EventKind := EventKind.ofValue? e.kind

/-- The row that `append_event` inserts for a payload that the cast takes. -/
def append_event (seq : ℕ) (kind : String) (payload : Dict) (visibility : Visibility) :
    Option Event :=
  match h : (Value.dict payload).stored with
  | some (.dict d) => some ⟨seq, kind, d, visibility, Value.stored_stored h⟩
  | _ => none

/-- Every object that the cast takes becomes a row. -/
theorem isSome_append_event (seq : ℕ) (kind : String) (payload : Dict) (visibility : Visibility) :
    (append_event seq kind payload visibility).isSome = (Value.dict payload).stored.isSome := by
  unfold append_event
  split
  next d h => simp [h]
  next hother =>
    cases hp : Value.storedPairs payload with
    | none => simp [Value.stored, hp]
    | some d =>
      have hd : (Value.dict payload).stored = some (.dict (byKey d)) := by simp [Value.stored, hp]
      exact (hother _ hd).elim

end Event

/-! ## Facts -/

structure Hypothesis where
  id : Value
  label : Value
  confidence : Value
  rationale : Value
  /-- The seeded hypothesis has no such key. -/
  parent : Option Value

structure TimelineEntry where
  seq : ℕ
  ts : Value
  summary : Value
  source_event_id : Value

structure Directive where
  id : Value
  text : Value
  scope : Value

structure BoundPolicy where
  id : Value
  version : Value

structure Facts where
  hypotheses : List Hypothesis := []
  active_directives : List Directive := []
  active_policies : List BoundPolicy := []
  timeline_summary : List TimelineEntry := []
  applied_seq : ℕ := 0

/-! ## Reducer -/

/-- `h.update(...)` with the four keys that an update may carry. -/
def Hypothesis.update (h : Hypothesis) (payload : Dict) : Hypothesis where
  id := h.id
  label := payload.getOr "label" h.label
  confidence := payload.getOr "confidence" h.confidence
  rationale := payload.getOr "rationale" h.rationale
  parent := (payload.lookup "parent").or h.parent

/-- `h[field_name] = value` for the fields that a correction may set. -/
def Hypothesis.correct (h : Hypothesis) (field_name : String) (value : Value) : Option Hypothesis :=
  match field_name with
  | "label" => some { h with label := value }
  | "confidence" => some { h with confidence := value }
  | "rationale" => some { h with rationale := value }
  | _ => none

/-- The loop that updates the first hypothesis with the identifier, or appends one. -/
def updateHypothesis (bid : Value) (payload : Dict) : List Hypothesis → List Hypothesis
  | [] =>
    [{ id := bid
       label := payload.getOr "label" (.str "")
       confidence := payload.getOr "confidence" (.float (.fin (1 / 2)))
       rationale := payload.getOr "rationale" (.str "")
       parent := some (payload.get "parent") }]
  | h :: hs =>
    if h.id.eq bid then h.update payload :: hs else h :: updateHypothesis bid payload hs

def recalibrate (payload : Dict) (h : Hypothesis) : M Hypothesis := do
  let updated ← (payload.getOr "confidences" (.dict [])).getKey h.id
  return if updated.isSome then { h with confidence := updated } else h

/-- `some` when a hypothesis was corrected, which ends `_apply_correction`. -/
def correctHypotheses (bid : Value) (field_name : String) (value : Value) :
    List Hypothesis → Option (List Hypothesis)
  | [] => none
  | h :: hs =>
    match if h.id.eq bid then h.correct field_name value else none with
    | some h' => some (h' :: hs)
    | none => (correctHypotheses bid field_name value hs).map (h :: ·)

def correctDirectives (bid value : Value) : List Directive → List Directive
  | [] => []
  | d :: ds =>
    if d.id.eq bid then { d with text := value } :: ds else d :: correctDirectives bid value ds

def apply_correction (state : Facts) (path value : Value) : M Facts := do
  let parts ← path.split '.'
  match parts with
  | ["hypotheses", bid, field_name] =>
    match correctHypotheses (.str bid) field_name value state.hypotheses with
    | some hs => return { state with hypotheses := hs }
    | none => return state
  | ["directives", bid, "text"] =>
    return { state with
      active_directives := correctDirectives (.str bid) value state.active_directives }
  | _ => return state

def TIMELINE_WINDOW : ℕ := 100

def Event.entry (e : Event) : TimelineEntry where
  seq := e.seq
  ts := e.payload.get "ts"
  summary := e.payload.getOr "summary" (.str "")
  source_event_id := e.payload.get "source_event_id"

/-- The panels after one event; `applied_seq` is moved by `apply_event`. -/
def Facts.fold (s : Facts) (e : Event) : M Facts :=
  match e.kind? with
  | some .alertIngested =>
    if s.hypotheses.isEmpty then
      return { s with
        hypotheses := [{
          id := .str "root"
          label := e.payload.getOr "initial_hypothesis" (.str "unknown")
          confidence := e.payload.getOr "ai_confidence" (.float (.fin (1 / 2)))
          rationale := .str ("seeded from rule=" ++ (e.payload.get "rule_id").toText)
          parent := none }] }
    else return s
  | some .hypothesisUpdated => do
    let bid ← e.payload.item "id"
    return { s with hypotheses := updateHypothesis bid e.payload s.hypotheses }
  | some .confidenceRecalibrated => do
    let hypotheses ← s.hypotheses.mapM (recalibrate e.payload)
    return { s with hypotheses }
  | some .timelineEntry =>
    return { s with
      timeline_summary := (s.timeline_summary ++ [e.entry]).rtake TIMELINE_WINDOW }
  | some .directiveAdded => do
    let did ← e.payload.item "id"
    if s.active_directives.any fun d => d.id.eq did then return s
    else
      let directive : Directive :=
        { id := did, text := e.payload.getOr "text" (.str ""), scope := e.payload.get "scope" }
      return { s with active_directives := s.active_directives ++ [directive] }
  | some .directiveRemoved => do
    let did ← e.payload.item "id"
    return { s with active_directives := s.active_directives.filter fun d => !d.id.eq did }
  | some .policyBound => do
    let pid ← e.payload.item "id"
    if s.active_policies.any fun p => p.id.eq pid then return s
    else
      let policy : BoundPolicy := { id := pid, version := e.payload.get "version" }
      return { s with active_policies := s.active_policies ++ [policy] }
  | some .analystCorrection =>
    apply_correction s (e.payload.getOr "path" (.str "")) (e.payload.get "value")
  | _ => return s

def apply_event (state : Facts) (e : Event) : M Facts :=
  Facts.fold { state with applied_seq := max state.applied_seq e.seq } e

end SocTalk.Projection
