import SocTalk.Authorization.Render
import SocTalk.Graph.Routing
import SocTalk.TriagePolicy.Guard
import SocTalk.Worker.Disposition

/-! The graph node that runs the guard on a drafted verdict, and what becomes of an
interrupt between the node, the router and the worker. -/
namespace SocTalk.Graph
open Py Authorization TriagePolicy Worker

/-- `float(v)`, `None` where the text or type is not a number. -/
def verdictConfidence (confidence : Value) : M (Option FloatVal) :=
  match confidence.toFloat with
  | .ok x => return some x
  | .error .typeError => return none
  | .error .valueError => return none
  | .error e => throw e

/-- The active policy under its current or its former key. -/
def triagePolicyOf (state : Dict) : Value :=
  ((Dict.get state "triage_policy").orElse (Dict.get state "playbook")).orElse (.dict [])

/-- Intelligence was expected and did not answer. -/
def intelUnavailable (investigation : Value) : M Bool := do
  let misp := (← investigation.get "misp_context").orElse (.dict [])
  let status ← misp.get "status"
  return status.eq (.str "unavailable") || status.eq (.str "degraded")

def componentsDump (c : AuthorizationComponents) : Value :=
  .dict [("sanctioned_or_routine", .bool c.sanctionedOrRoutine), ("in_scope", .bool c.inScope),
    ("actor_genuine", .bool c.actorGenuine), ("policy_allowed", .bool c.policyAllowed)]

def overrideDump (o : GuardOverride) : Value :=
  .dict [("guardrail", .str o.guardrail), ("effect", .str o.effect.value),
    ("from_decision", .str o.fromDecision), ("to_decision", .str o.toDecision),
    ("reason", .str o.reason)]

/-- Append to the audit trail; the current and the former key name one list. -/
def appendAudit (entry : Dict) (state : Dict) : M Dict :=
  let trail := getDefault state "triage_policy_audit" (getDefault state "playbook_audit" (.list []))
  match trail with
  | .list xs =>
    let trail := Value.list (xs ++ [.dict entry])
    return Dict.set (Dict.set state "playbook_audit" trail) "triage_policy_audit" trail
  | _ => throw .attributeError

/-- `v + 1`. -/
def increment : Value → M Value
  | .bool b => return .int (if b then 2 else 1)
  | .int n => return .int (n + 1)
  | .float (.fin q) => return .float (FloatVal.ofRat (q + 1))
  | .float x => return .float x
  | _ => throw .typeError

section

-- Schema validation of a recorded authorization context.
variable (validate : Value → Option AuthorizationContext)

/-- The guard's arguments as the node reads them off the state; `none` where it passes the
state through. -/
def guardInput (state : Dict) : M (Option GuardInput) := do
  let verdict := (Dict.get state "verdict").orElse (.dict [])
  if (Dict.get state "verdict_error").truthy || !verdict.truthy then return none
  let triagePolicy := triagePolicyOf state
  let _triagePolicyId ← triagePolicy.get "id"
  let investigation := (Dict.get state "investigation").orElse (.dict [])
  let draftDecision := decisionValue (← verdict.get "decision")
  let confidence ← verdictConfidence (← verdict.get "confidence")
  return some
    { verdictDecision := draftDecision
      context := ← parseAuthorizationContext validate investigation
      maliciousSignal := ← hasMaliciousSignal investigation
      closeSignoffDataClasses :=
        (← triagePolicy.get "close_signoff_data_classes").orElse (.list [])
      guardrails := (← triagePolicy.get "guardrails").orElse (.list [])
      verdictConfidence := confidence
      activeIncident := activeIncident state
      intelUnavailable := ← intelUnavailable investigation }

/-- The node's own evaluation of the guard on a state. -/
def guardResult (state : Dict) : M (Option GuardResult) := do
  match ← guardInput validate state with
  | none => return none
  | some g => return some (← evaluateGuard g)

/-- Would-fire records of the shadow policies join the audit trail. -/
def recordShadows (now : String) (ctx : Dict) (state : Dict) : M Dict := do
  let shadows ← (((Dict.get state "triage_policy_shadow").orElse
    (Dict.get state "playbook_shadow")).orElse (.list [])).iter
  let audits ← shadowGuardrailAudits shadows ctx
  audits.foldlM (fun state entry => appendAudit (("at", .str now) :: entry) state) state

def auditRecord (now : String) (state : Dict) (draft : String) (r : GuardResult) : Dict :=
  [("at", .str now), ("triage_policy", field (triagePolicyOf state) "id"),
    ("authz_class", .str r.authzClass.value),
    ("components", match r.components with
      | some c => componentsDump c
      | none => .none),
    ("llm_draft_decision", .str draft), ("final_decision", .str r.finalDecision),
    ("overrides", .list (r.overrides.map overrideDump))]

/-- The verdict as the guard enforces it. -/
def overriddenVerdict (verdict : Value) (draft : String) (r : GuardResult) : Value :=
  let reasons := String.intercalate "; "
    ((r.overrides.filter (·.effect == .override)).map (·.reason))
  let recommendation := ((field verdict "recommendation").orElse (.str "")).toText
  let text := "[GUARD OVERRIDE: LLM drafted '" ++ draft ++ "', enforced '" ++ r.finalDecision ++
    "' — " ++ reasons ++ "] " ++ recommendation
  match verdict with
  | .dict d => .dict (Dict.set (Dict.set d "decision" (.str r.finalDecision)) "recommendation"
      (.str (prefixOf 2048 (strip text))))
  | v => v

/-- What a fired guard writes: the interrupt flag, and the enforced verdict. -/
def commitRuling (draft : String) (r : GuardResult) (state : Dict) : M Dict := do
  let state := if r.interrupted then Dict.set state "verdict_interrupted" (.bool true) else state
  if r.overridden then
    let verdict := (Dict.get state "verdict").orElse (.dict [])
    let state := Dict.set (Dict.set state "verdict" (overriddenVerdict verdict draft r))
      "verdict_overridden_by_guard" (.bool true)
    if r.finalDecision = "needs_more_info" then
      return Dict.set state "verdict_retry_count"
        (← increment (getDefault state "verdict_retry_count" (.int 0)))
    return state
  return state

/-- The node; `now` is the wall clock's timestamp text. -/
def verdictGuardNode (now : String) (state : Dict) : M Dict := do
  match ← guardInput validate state with
  | none => return state
  | some g =>
    -- Each verdict pass gets a fresh ruling.
    let state := Dict.pop (Dict.pop state "verdict_interrupted") "verdict_overridden_by_guard"
    let result ← evaluateGuard g
    let state := Dict.set state "authz_class" (.str result.authzClass.value)
    let state ← recordShadows now result.conditionCtx state
    if result.overrides.isEmpty then return state
    let state ← appendAudit (auditRecord now state g.verdictDecision result) state
    commitRuling g.verdictDecision result state

end

/-! ## What the node leaves alone -/

theorem appendAudit_get {entry state state' : Dict} (h : appendAudit entry state = .ok state')
    {k : String} (hp : k ≠ "playbook_audit") (ht : k ≠ "triage_policy_audit") :
    Dict.get state' k = Dict.get state k := by
  unfold appendAudit at h
  dsimp only at h
  split at h
  · obtain rfl := (pure_eq_ok _ _).mp h
    rw [Dict.get_set_of_ne _ _ ht, Dict.get_set_of_ne _ _ hp]
  · cases h

theorem recordShadows_get {now : String} {ctx state state' : Dict}
    (h : recordShadows now ctx state = .ok state') {k : String} (hp : k ≠ "playbook_audit")
    (ht : k ≠ "triage_policy_audit") : Dict.get state' k = Dict.get state k := by
  unfold recordShadows at h
  obtain ⟨shadows, -, h⟩ := (bind_eq_ok _ _ _).mp h
  obtain ⟨audits, -, h⟩ := (bind_eq_ok _ _ _).mp h
  refine foldlM_inv (P := fun s => Dict.get s k = Dict.get state k) ?_ rfl h
  intro s entry s' hs hs'
  rw [appendAudit_get hs' hp ht, hs]

theorem overriddenVerdict_isDict {verdict : Value} (draft : String) (r : GuardResult)
    (h : verdict.isDict = true) : (overriddenVerdict verdict draft r).isDict = true := by
  cases verdict with
  | dict d => rfl
  | _ => cases h

/-- A committed ruling leaves a dictionary as the verdict and the provider error as it was. -/
theorem commitRuling_get {draft : String} {r : GuardResult} {state state' : Dict}
    (h : commitRuling draft r state = .ok state')
    (hd : ((Dict.get state "verdict").orElse (.dict [])).isDict = true)
    (hv : (Dict.get state "verdict").isDict = true) :
    (Dict.get state' "verdict").isDict = true ∧
      Dict.get state' "verdict_error" = Dict.get state "verdict_error" ∧
      (r.interrupted = true → Dict.get state' "verdict_interrupted" = .bool true) := by
  have hflag : ∀ k, k ≠ "verdict_interrupted" →
      Dict.get (if r.interrupted then Dict.set state "verdict_interrupted" (.bool true) else state)
        k = Dict.get state k := by
    intro k hk
    split
    · exact Dict.get_set_of_ne _ _ hk
    · rfl
  unfold commitRuling at h
  dsimp only at h
  split at h
  · have hdict := overriddenVerdict_isDict draft r hd
    rw [hflag "verdict" (by decide)] at h
    split at h
    · obtain ⟨n, -, h⟩ := (bind_eq_ok _ _ _).mp h
      obtain rfl := (pure_eq_ok _ _).mp h
      refine ⟨?_, ?_, fun hi => ?_⟩
      · simpa [Dict.get_set_of_ne] using hdict
      · simp [Dict.get_set_of_ne, hflag]
      · simp [Dict.get_set_of_ne, hi]
    · obtain rfl := (pure_eq_ok _ _).mp h
      refine ⟨?_, ?_, fun hi => ?_⟩
      · simpa [Dict.get_set_of_ne] using hdict
      · simp [Dict.get_set_of_ne, hflag]
      · simp [Dict.get_set_of_ne, hi]
  · obtain rfl := (pure_eq_ok _ _).mp h
    refine ⟨?_, hflag _ (by decide), fun hi => ?_⟩
    · rw [hflag "verdict" (by decide)]
      exact hv
    · simp [hi]

/-! ## The interrupt downstream -/

/-- The flag is set, the router sends the run to review, and the worker does not close. -/
structure InterruptKept (state : Dict) : Prop where
  flag : (Dict.get state "verdict_interrupted").truthy = true
  route : routeFromVerdict state = .ok .humanReview
  disposition : dispositionFromFinal state .completed ≠ .ok .closeFp

theorem lookup_of_isDict {d : Dict} {k : String} (h : (Dict.get d k).isDict = true) :
    ∃ e, d.lookup k = some (.dict e) := by
  unfold Dict.get at h
  cases hk : d.lookup k with
  | none => simp [hk, Value.isDict] at h
  | some v =>
    cases v with
    | dict e => exact ⟨e, rfl⟩
    | _ => simp [hk, Value.isDict] at h

/-- A set flag is honoured by the router and the worker. -/
theorem interruptKept_of_flag {state : Dict}
    (hflag : (Dict.get state "verdict_interrupted").truthy = true)
    (hverdict : (Dict.get state "verdict").isDict = true)
    (herror : (Dict.get state "verdict_error").truthy = false) : InterruptKept state := by
  refine ⟨hflag, ?_, fun hclose => ?_⟩
  · obtain ⟨e, he⟩ := lookup_of_isDict hverdict
    unfold routeFromVerdict
    simp [getDefault, he, valueGetDefault, herror, hflag]
  · obtain ⟨-, hd⟩ := dispositionFromFinal_eq_ok_iff.mp hclose
    have hi : Interrupted state := hflag
    simp [dispositionOf, hi] at hd

section

variable (validate : Value → Option AuthorizationContext)

/-- The close waits for a human for one reason only: intelligence that was expected did
not answer. No guardrail of the code or of the policy and no sign-off rule fires. -/
def IntelOnly (state : Dict) : Prop :=
  ∃ g, guardInput validate state = .ok (some g) ∧ g.verdictDecision = "close" ∧
    g.intelUnavailable = true ∧ Quiet g

/-- The state the node leaves behind carries every interrupt the guard ruled. -/
def InterruptCarried (state state' : Dict) : Prop :=
  ∀ r, guardResult validate state = .ok (some r) → r.interrupted = true → InterruptKept state'

end

/-- The node reads its arguments only off a dictionary verdict with no provider error. -/
theorem guardInput_eq_some {validate : Value → Option AuthorizationContext} {state : Dict}
    {g : GuardInput} (h : guardInput validate state = .ok (some g)) :
    (Dict.get state "verdict").isDict = true ∧ (Dict.get state "verdict_error").truthy = false := by
  unfold guardInput at h
  dsimp only at h
  split at h
  · cases h
  · rename_i hpass
    obtain ⟨herr, hver⟩ : (Dict.get state "verdict_error").truthy = false ∧
        (Dict.get state "verdict").truthy = true := by
      simpa using hpass
    obtain ⟨id, -, h⟩ := (bind_eq_ok _ _ _).mp h
    obtain ⟨decision, hdec, h⟩ := (bind_eq_ok _ _ _).mp h
    obtain ⟨hrec, -⟩ := get_orElse_eq_ok_iff.mp hdec
    exact ⟨hrec hver, herr⟩

theorem interrupt_carried_iff {validate : Value → Option AuthorizationContext} {now : String}
    {state state' : Dict} (h : verdictGuardNode validate now state = .ok state') :
    InterruptCarried validate state state' ↔ ¬IntelOnly validate state := by
  unfold verdictGuardNode at h
  obtain ⟨input, hin, h⟩ := (bind_eq_ok _ _ _).mp h
  cases input with
  | none =>
    constructor
    · rintro - ⟨g, hg, -⟩
      rw [hin] at hg
      cases hg
    · intro _ r hr
      unfold guardResult at hr
      rw [hin] at hr
      cases hr
  | some g =>
    obtain ⟨hverdict, herror⟩ := guardInput_eq_some hin
    dsimp only at h
    obtain ⟨r, hr, h⟩ := (bind_eq_ok _ _ _).mp h
    obtain ⟨recorded, hrec, h⟩ := (bind_eq_ok _ _ _).mp h
    have hresult : guardResult validate state = .ok (some r) := by
      unfold guardResult
      rw [hin]
      simp [hr, bind, Except.bind, pure, Except.pure]
    -- Up to the early return only the ruling's class and the audit trail have been written.
    have hkeep : ∀ k, k ≠ "playbook_audit" → k ≠ "triage_policy_audit" → k ≠ "authz_class" →
        k ≠ "verdict_overridden_by_guard" → k ≠ "verdict_interrupted" →
        Dict.get recorded k = Dict.get state k := by
      intro k h1 h2 h3 h4 h5
      rw [recordShadows_get hrec h1 h2, Dict.get_set_of_ne _ _ h3, Dict.get_pop_of_ne _ h4,
        Dict.get_pop_of_ne _ h5]
    have hcleared : Dict.get recorded "verdict_interrupted" = .none := by
      rw [recordShadows_get hrec (by decide) (by decide), Dict.get_set_of_ne _ _ (by decide),
        Dict.get_pop_of_ne _ (by decide), Dict.get_pop_self]
    cases hov : r.overrides with
    | nil =>
      rw [hov, List.isEmpty_nil, if_pos rfl] at h
      obtain rfl := (pure_eq_ok _ _).mp h
      have hquiet := (overrides_eq_nil_iff hr).mp hov
      constructor
      · rintro hcar ⟨g', hg', hclose, hintel, -⟩
        obtain rfl : g = g' := by simpa [hin] using hg'
        have hint : r.interrupted = true := by
          rcases evaluateGuard_eq_ok hr with ⟨-, -, -, hi⟩ | ⟨o, ho, -⟩ | ⟨o, ho, -⟩
          · simp [hi, hclose, hintel]
          · simp [ho] at hov
          · simp [ho] at hov
        have hf := (hcar r hresult hint).flag
        rw [hcleared] at hf
        cases hf
      · intro hnot r' hr' hint
        obtain rfl : r = r' := by simpa [hresult] using hr'
        rcases evaluateGuard_eq_ok hr with ⟨-, -, -, hi⟩ | ⟨o, ho, -⟩ | ⟨o, ho, -⟩
        · obtain ⟨hclose, hintel⟩ : g.verdictDecision = "close" ∧ g.intelUnavailable = true := by
            simpa [hi] using hint
          exact absurd ⟨g, hin, hclose, hintel, hquiet⟩ hnot
        · simp [ho] at hov
        · simp [ho] at hov
    | cons o os =>
      rw [hov, List.isEmpty_cons, if_neg (by simp)] at h
      obtain ⟨audited, haud, h⟩ := (bind_eq_ok _ _ _).mp h
      have haudKeep : ∀ k, k ≠ "playbook_audit" → k ≠ "triage_policy_audit" →
          Dict.get audited k = Dict.get recorded k := fun k h1 h2 => appendAudit_get haud h1 h2
      have hv : (Dict.get audited "verdict").isDict = true := by
        rw [haudKeep _ (by decide) (by decide), hkeep _ (by decide) (by decide) (by decide)
          (by decide) (by decide)]
        exact hverdict
      have he : Dict.get audited "verdict_error" = Dict.get state "verdict_error" := by
        rw [haudKeep _ (by decide) (by decide), hkeep _ (by decide) (by decide) (by decide)
          (by decide) (by decide)]
      have hd : ((Dict.get audited "verdict").orElse (.dict [])).isDict = true := by
        unfold Value.orElse
        split
        · exact hv
        · rfl
      obtain ⟨hv', he', hflag⟩ := commitRuling_get h hd hv
      constructor
      · rintro - ⟨g', hg', -, -, hquiet⟩
        obtain rfl : g = g' := by simpa [hin] using hg'
        rw [(overrides_eq_nil_iff hr).mpr hquiet] at hov
        cases hov
      · intro _ r' hr' hint
        obtain rfl : r = r' := by simpa [hresult] using hr'
        refine interruptKept_of_flag ?_ hv' (by rw [he', he]; exact herror)
        rw [hflag hint]
        rfl

/-- A drafted close while the threat-intelligence lookup did not answer. -/
def unansweredState : Dict :=
  [("verdict", .dict [("decision", .str "close"), ("confidence", .float (.fin 1))]),
    ("investigation", .dict [("misp_context", .dict [("status", .str "unavailable")])])]

/-- The state after the node: only the authorization class was added. -/
def unansweredPassed : Dict := unansweredState ++ [("authz_class", .str "absent")]

theorem interrupt_carried_iff_unanswered :
    InterruptCarried (fun _ => none) unansweredState unansweredPassed ↔
      ¬IntelOnly (fun _ => none) unansweredState := by
  have h : verdictGuardNode (fun _ => none) "2026-01-01T00:00:00+00:00" unansweredState =
      .ok unansweredPassed := by rfl
  exact interrupt_carried_iff h

theorem interrupt_lost_on_unanswered :
    verdictGuardNode (fun _ => none) "2026-01-01T00:00:00+00:00" unansweredState =
      .ok unansweredPassed ∧
    (guardResult (fun _ => none) unansweredState).map (Option.map (·.interrupted)) =
      .ok (some true) ∧
    routeFromVerdict unansweredPassed = .ok .closeInvestigation ∧
    dispositionFromFinal unansweredPassed .completed = .ok .closeFp ∧
    ¬InterruptCarried (fun _ => none) unansweredState unansweredPassed := by
  have hres : ∃ r, guardResult (fun _ => none) unansweredState = .ok (some r) ∧
      r.interrupted = true := ⟨_, rfl, rfl⟩
  refine ⟨rfl, rfl, rfl, rfl, fun hcar => ?_⟩
  obtain ⟨r, hr, hint⟩ := hres
  have hflag := (hcar r hr hint).flag
  cases hflag

end SocTalk.Graph
