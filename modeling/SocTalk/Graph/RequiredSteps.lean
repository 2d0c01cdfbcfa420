import SocTalk.Graph.Run

/-! Routing keeps to the policy: no decision before the required steps, no action outside the legal
set, and a bound on every run. -/
namespace SocTalk.Graph
open Py Authorization TriagePolicy

variable (S : Setup)

/-! ## The edges -/

/-- Every required step that the graph has a node for has run. -/
def Decided (s : GraphState) : Prop := missingRequiredSteps s.triagePolicy s.stepsRun = []

theorem remap_mem {legal : List SupervisorAction} (hne : legal ≠ []) (action : SupervisorAction) :
    remap (some legal) action ∈ legal := by
  unfold remap
  dsimp only
  split
  · assumption
  · split
    · assumption
    · cases legal with
      | nil => exact absurd rfl hne
      | cons a legal => exact List.mem_cons_self

/-- What the gate lets through is legal, or the budget's close, or the verdict that the iteration
limit forces. -/
theorem gatedAction_legal {s : GraphState} {legal : List SupervisorAction}
    (h : legalActionsFor s.triagePolicy s.stepsRun = some legal) :
    gatedAction s ∈ legal ∨ s.budgetTerminated = true ∨ forcedVerdict s := by
  unfold gatedAction
  split
  · rename_i hexempt
    exact .inr hexempt
  · rw [h]
    exact .inl (remap_mem (legalActionsFor_ne_nil h) _)

theorem routeFromSupervisor_verdict {s : GraphState} (h : routeFromSupervisor s = .verdict)
    (hbudget : s.budgetTerminated = false) : Decided s ∧ s.supervisorError = none := by
  unfold routeFromSupervisor at h
  cases herr : s.supervisorError with
  | some category => simp [herr] at h
  | none =>
    simp only [herr, hbudget] at h
    by_contra hmissing
    unfold Decided at hmissing
    cases hgate : gatedAction s <;> simp_all

theorem routeFromSupervisor_close {s : GraphState}
    (h : routeFromSupervisor s = .closeInvestigation) :
    Decided s ∨ s.budgetTerminated = true ∨ s.supervisorError.isSome = true := by
  unfold routeFromSupervisor at h
  unfold Decided
  cases herr : s.supervisorError with
  | some category => exact .inr (.inr rfl)
  | none =>
    cases hbudget : s.budgetTerminated with
    | true => exact .inr (.inl rfl)
    | false =>
      by_contra hmissing
      cases hgate : gatedAction s <;> simp_all

theorem routeFromSupervisor_gather {s : GraphState}
    (h : routeFromSupervisor s = .gatherAuthorizationContext) :
    gatherAuthorizationContext ∉ s.stepsRun := by
  intro hmem
  have hnone := missingRequiredSteps_of_gathered s.triagePolicy hmem
  unfold routeFromSupervisor at h
  cases herr : s.supervisorError with
  | some category => simp [herr] at h
  | none => cases hgate : gatedAction s <;> simp_all

inductive IsWorker : Node → Prop
  | wazuh : IsWorker .wazuhWorker
  | cortex : IsWorker .cortexWorker
  | misp : IsWorker .mispWorker

/-- Where the supervisor's edge leads. -/
theorem routeFromSupervisor_cases (s : GraphState) :
    IsWorker (routeFromSupervisor s) ∨ routeFromSupervisor s = .gatherAuthorizationContext ∨
      routeFromSupervisor s = .verdict ∨ routeFromSupervisor s = .closeInvestigation := by
  unfold routeFromSupervisor
  split
  · exact .inr (.inr (.inr rfl))
  · cases gatedAction s with
    | investigate => exact .inl .wazuh
    | enrich => exact .inl .cortex
    | contextualize => exact .inl .misp
    | verdict => dsimp only; split <;> simp
    | close => dsimp only; split <;> simp

/-- The forced verdict is not sent to a worker. -/
theorem not_isWorker_of_forced {s : GraphState} (h : forcedVerdict s) :
    ¬ IsWorker (routeFromSupervisor s) := by
  have hgate : gatedAction s = .verdict := by
    unfold gatedAction
    rw [if_pos (.inr h)]
    exact h.1
  unfold routeFromSupervisor
  intro hworker
  rw [hgate] at hworker
  split at hworker
  · cases hworker
  · dsimp only at hworker
    split at hworker <;> cases hworker

theorem eq_builtin_of_disposition {p : TriagePolicy} (hp : p ∈ S.registry)
    (h : knownDisposition p = true) : p = agentHealthTriagePolicy := by
  rcases mem_registry.mp hp with hbuiltin | hloaded
  · rcases List.mem_cons.mp hbuiltin with rfl | hp
    · cases h
    · exact List.mem_singleton.mp hp
  · have hnone := loaded_disposition hloaded
    unfold knownDisposition at h
    rw [hnone] at h
    cases h

/-! ## The nodes -/

/-- Not ended by its budget or a failed call, with an iteration for each run of the supervisor. -/
structure Running (s : GraphState) (runs : ℕ) : Prop where
  budget : s.budgetTerminated = false
  error : s.supervisorError = none
  iterations : s.iterationCount = runs

/-- What the supervisor leaves: its budget's close, or one more iteration. -/
theorem supervisorNode_spec (a : Answer) {s : GraphState} {runs : ℕ} (h : Running s runs) :
    (supervisorNode S a s).triagePolicy = s.triagePolicy ∧
    (supervisorNode S a s).stepsRun = s.stepsRun ∧
    ((supervisorNode S a s).budgetTerminated = true ∧
        proposedAction (supervisorNode S a s) = .close ∨
      (supervisorNode S a s).budgetTerminated = false ∧
        (supervisorNode S a s).iterationCount = runs + 1 ∧
        (maxIterations ≤ runs + 1 → forcedVerdict (supervisorNode S a s))) := by
  unfold supervisorNode
  dsimp only
  rw [h.iterations]
  split
  · exact ⟨rfl, rfl, .inl ⟨rfl, rfl⟩⟩
  · split
    · rename_i hmax
      exact ⟨rfl, rfl, .inr ⟨h.budget, rfl, fun _ => ⟨rfl, hmax⟩⟩⟩
    · rename_i hmax
      cases a.decision with
      | ok decision => exact ⟨rfl, rfl, .inr ⟨h.budget, rfl, fun hle => absurd hle hmax⟩⟩
      | error category => exact ⟨rfl, rfl, .inr ⟨h.budget, rfl, fun hle => absurd hle hmax⟩⟩

/-- A supervisor that does not send the run to its close has begun one more iteration. -/
theorem supervisorNode_running (a : Answer) {s : GraphState} {runs : ℕ} (h : Running s runs)
    (hroute : routeFromSupervisor (supervisorNode S a s) ≠ .closeInvestigation) :
    Running (supervisorNode S a s) (runs + 1) ∧
      (maxIterations ≤ runs + 1 → forcedVerdict (supervisorNode S a s)) := by
  obtain ⟨-, -, hcases⟩ := supervisorNode_spec S a h
  generalize supervisorNode S a s = s' at *
  have herror : s'.supervisorError = none := by
    by_contra hne
    have hsome := Option.isSome_iff_ne_none.mpr hne
    exact hroute (by rw [routeFromSupervisor, if_pos hsome])
  rcases hcases with ⟨hbudget, hclose⟩ | ⟨hbudget, hiterations, hforced⟩
  · have hgate : gatedAction s' = .close := by rw [gatedAction, if_pos (.inl hbudget), hclose]
    exact absurd (by simp [routeFromSupervisor, herror, hgate, hbudget]) hroute
  · exact ⟨⟨hbudget, herror, hiterations⟩, hforced⟩

/-- The keys that routing reads, beside the verdict's, are as before. -/
structure SameRun (s s' : GraphState) : Prop where
  policy : s'.triagePolicy = s.triagePolicy
  steps : s'.stepsRun = s.stepsRun
  budget : s'.budgetTerminated = s.budgetTerminated
  iterations : s'.iterationCount = s.iterationCount
  error : s'.supervisorError = s.supervisorError

theorem sameRun_workerNode (a : Answer) (s : GraphState) : SameRun s (workerNode a s) :=
  ⟨rfl, rfl, rfl, rfl, rfl⟩

theorem sameRun_verdictNode (a : Answer) (s : GraphState) : SameRun s (verdictNode a s) := by
  unfold verdictNode
  split <;> exact ⟨rfl, rfl, rfl, rfl, rfl⟩

theorem sameRun_humanReviewNode (d : HumanDecision) (s : GraphState) :
    SameRun s (humanReviewNode d s) := ⟨rfl, rfl, rfl, rfl, rfl⟩

theorem sameRun_closeInvestigationNode {s s' : GraphState}
    (h : closeInvestigationNode s = .ok s') : SameRun s s' := by
  unfold closeInvestigationNode at h
  split at h
  · cases h
    exact ⟨rfl, rfl, rfl, rfl, rfl⟩
  · cases h

theorem sameRun_enforceRuling (draft : String) (r : GuardResult) (s : GraphState) :
    SameRun s (enforceRuling draft r s) := by
  unfold enforceRuling
  cases r.interrupted <;> cases r.overridden <;> exact ⟨rfl, rfl, rfl, rfl, rfl⟩

/-- Nothing but the gather step joins the steps that have run. -/
theorem gatherNode_spec {s s' : GraphState} (h : gatherAuthorizationContextNode S s = .ok s') :
    s'.triagePolicy = s.triagePolicy ∧ s'.budgetTerminated = s.budgetTerminated ∧
      s'.iterationCount = s.iterationCount ∧ s'.supervisorError = s.supervisorError ∧
      gatherAuthorizationContext ∈ s'.stepsRun := by
  have hmem : ∀ steps : List String, gatherAuthorizationContext ∈
      (if steps.contains gatherAuthorizationContext then steps
        else steps ++ [gatherAuthorizationContext]) := by
    intro steps
    split <;> simp_all
  unfold gatherAuthorizationContextNode dumpComponents at h
  obtain ⟨ctx, -, h⟩ := (bind_eq_ok _ _ _).mp h
  have hsteps := hmem s.stepsRun
  cases ctx with
  | none =>
    obtain rfl := (pure_eq_ok _ _).mp h
    split <;> simp_all
  | some ctx =>
    obtain ⟨components, -, h⟩ := (bind_eq_ok _ _ _).mp h
    split at h
    · obtain rfl := (pure_eq_ok _ _).mp h
      dsimp only
      split <;> simp_all
    · cases h

/-! ## The verdict's edge -/

/-- A drafted request for more information has been counted as a retry. -/
def Drafted (s : GraphState) : Prop :=
  s.verdictError.isSome = true ∨ ∃ d record,
    s.verdict = ("decision", .enum (VerdictDecision.value d)) :: record ∧
      (d = .needsMoreInfo → 1 ≤ s.verdictRetryCount)

/-- The same of the verdict as it is enforced. -/
def Settled (s : GraphState) : Prop :=
  s.verdictError.isSome = true ∨ ∃ v, s.verdict.lookup "decision" = some v ∧
    (v.eq (.str "needs_more_info") = true → 1 ≤ s.verdictRetryCount)

theorem drafted_verdictNode (a : Answer) (s : GraphState) : Drafted (verdictNode a s) := by
  unfold verdictNode
  split
  · rename_i d record _
    refine .inr ⟨d, record, rfl, fun hd => ?_⟩
    simp [hd]
  · exact .inl rfl

theorem Drafted.settled {s : GraphState} (h : Drafted s) : Settled s := by
  rcases h with herr | ⟨d, record, hverdict, hretry⟩
  · exact .inl herr
  · refine .inr ⟨.enum d.value, by rw [hverdict]; rfl, fun heq => hretry ?_⟩
    cases d with
    | needsMoreInfo => rfl
    | escalate => exact absurd heq (by decide)
    | close => exact absurd heq (by decide)

/-- What an enforced ruling leaves as the verdict's decision. -/
theorem lookup_overridden (verdict : Dict) (draft : String) (r : GuardResult) :
    ∃ d, overriddenVerdict (.dict verdict) draft r = .dict d ∧
      d.lookup "decision" = some (.str r.finalDecision) := by
  refine ⟨_, rfl, ?_⟩
  rw [Dict.lookup_set_of_ne _ _ (by decide), Dict.lookup_set_self]

theorem settled_enforceRuling {draft : String} {r : GuardResult} {s : GraphState}
    (h : Settled s) : Settled (enforceRuling draft r s) := by
  unfold enforceRuling
  cases hover : r.overridden with
  | false => cases r.interrupted <;> exact h
  | true =>
    have hverdict : (if r.interrupted = true then { s with verdictInterrupted := true }
        else s).verdict = s.verdict := by split <;> rfl
    obtain ⟨d, hd, hlookup⟩ := lookup_overridden s.verdict draft r
    right
    refine ⟨.str r.finalDecision, ?_, fun heq => ?_⟩
    · dsimp only
      rw [if_pos rfl, hverdict, hd]
      exact hlookup
    · have hfinal : r.finalDecision = "needs_more_info" := by
        simpa [Value.eq, Value.num?, Value.text?] using heq
      dsimp only
      rw [if_pos rfl]
      dsimp only
      rw [if_pos hfinal]
      omega

theorem sameRun_applyRuling (now draft : String) (result : GuardResult) (audits : List Dict)
    (s : GraphState) : SameRun s (applyRuling now draft result audits s) ∧
      (Settled s → Settled (applyRuling now draft result audits s)) := by
  unfold applyRuling
  dsimp only
  split
  · exact ⟨⟨rfl, rfl, rfl, rfl, rfl⟩, fun h => h⟩
  · obtain ⟨hpolicy, hsteps, hbudget, hiterations, herror⟩ := sameRun_enforceRuling draft result _
    exact ⟨⟨hpolicy, hsteps, hbudget, hiterations, herror⟩, fun h => settled_enforceRuling h⟩

theorem sameRun_guardNode {now : String} {s s' : GraphState} (h : guardNode S now s = .ok s') :
    SameRun s s' ∧ (Drafted s → Settled s') := by
  unfold guardNode at h
  obtain ⟨g, -, h⟩ := (bind_eq_ok _ _ _).mp h
  cases g with
  | none =>
    obtain rfl := (pure_eq_ok _ _).mp h
    exact ⟨⟨rfl, rfl, rfl, rfl, rfl⟩, Drafted.settled⟩
  | some g =>
    obtain ⟨result, -, h⟩ := (bind_eq_ok _ _ _).mp h
    obtain ⟨audits, -, h⟩ := (bind_eq_ok _ _ _).mp h
    obtain rfl := (pure_eq_ok _ _).mp h
    obtain ⟨hsame, hsettled⟩ := sameRun_applyRuling now g.verdictDecision result audits s
    exact ⟨hsame, fun hdraft => hsettled hdraft.settled⟩

/-- A settled verdict is not sent back to the supervisor. -/
theorem route_ne_supervisor {s : GraphState} (h : Settled s) {route : Route}
    (hroute : routeFromVerdict s.toDict = .ok route) : route ≠ .supervisor := by
  have hverdict : getDefault s.toDict "verdict" (.dict []) = .dict s.verdict := rfl
  have herror : Dict.get s.toDict "verdict_error" = errorDump s.verdictError := rfl
  have hcount : getDefault s.toDict "verdict_retry_count" (.int 0) = .int s.verdictRetryCount :=
    rfl
  unfold routeFromVerdict at hroute
  simp only [hverdict, herror, hcount, valueGetDefault] at hroute
  obtain ⟨decision, hdecision, hroute⟩ := (bind_eq_ok _ _ _).mp hroute
  obtain rfl := (pure_eq_ok _ _).mp hdecision
  rcases h with herr | ⟨v, hlookup, hretry⟩
  · obtain ⟨category, hcategory⟩ := Option.isSome_iff_exists.mp herr
    have htruthy : (errorDump s.verdictError).truthy = true := by rw [hcategory]; rfl
    rw [if_pos htruthy] at hroute
    obtain ⟨c, -, hroute⟩ := (bind_eq_ok _ _ _).mp hroute
    cases (pure_eq_ok _ _).mp hroute
    simp
  · have hdecision : getDefault s.verdict "decision" (.str "needs_more_info") = v := by
      rw [getDefault, hlookup]
      rfl
    rw [hdecision] at hroute
    split at hroute
    · obtain ⟨c, -, hroute⟩ := (bind_eq_ok _ _ _).mp hroute
      cases (pure_eq_ok _ _).mp hroute
      simp
    · split at hroute
      · cases hroute
        simp
      · split at hroute
        · cases hroute
          simp
        · split at hroute
          · cases hroute
            simp
          · split at hroute
            · rename_i hmore
              have hle : FloatVal.le (.fin 1) (.fin s.verdictRetryCount) = true := by
                have hcast : (1 : ℚ) ≤ s.verdictRetryCount := by exact_mod_cast hretry hmore
                rcases lt_or_eq_of_le hcast with hlt | heq
                · simp [FloatVal.le, FloatVal.lt, hlt]
                · simp [FloatVal.le, FloatVal.eq, ← heq]
              have hcompare : Value.compare .ge (.int s.verdictRetryCount) (.int 1) = .ok true := by
                simpa [Value.compare, Value.num?, CompareOp.floats] using hle
              rw [hcompare] at hroute
              cases (pure_eq_ok _ _).mp hroute
              simp
            · cases hroute
              simp

/-! ## The invariant -/

/-- The run ends without its required steps only by its budget or a failed supervisor call. -/
def Exempt (s : GraphState) : Prop := s.budgetTerminated = true ∨ s.supervisorError.isSome = true

/-- Whether the gather step has run, as a number. -/
def gathered (s : GraphState) : ℕ := if gatherAuthorizationContext ∈ s.stepsRun then 1 else 0

theorem gathered_le (s : GraphState) : gathered s ≤ 1 := by
  unfold gathered
  split <;> omega

section

variable {s s' : GraphState} {runs infos moves : ℕ}

theorem SameRun.decided (h : SameRun s s') (hs : Decided s) : Decided s' := by
  unfold Decided
  rw [h.policy, h.steps]
  exact hs

theorem SameRun.exempt (h : SameRun s s') (hs : Exempt s) : Exempt s' := by
  unfold Exempt
  rw [h.budget, h.error]
  exact hs

theorem SameRun.running (h : SameRun s s') (hs : Running s runs) : Running s' runs :=
  ⟨h.budget.trans hs.budget, h.error.trans hs.error, h.iterations.trans hs.iterations⟩

theorem SameRun.gathered (h : SameRun s s') : gathered s' = gathered s := by
  unfold Graph.gathered
  rw [h.steps]

/-- What holds before each node, of the state, the supervisor's runs, the reviews that asked for
more information, and the nodes that have run. -/
def InvAt (s : GraphState) (runs infos moves : ℕ) : Place → Prop
  | .before .resolveTriagePolicy => s.triagePolicy = none ∧ Running s runs ∧ runs = 0 ∧ moves = 0
  | .before .operationalClose =>
    Decided s ∧ s.triagePolicy.any knownDisposition = true ∧ runs = 0 ∧ moves ≤ 1
  | .before .supervisor =>
    Running s runs ∧ runs ≤ 9 + gathered s + infos ∧ moves ≤ 4 * runs + 1
  | .before .gatherAuthorizationContext =>
    Running s runs ∧ gathered s = 0 ∧ runs ≤ 10 + infos ∧ moves + 2 ≤ 4 * runs
  | .before .verdict =>
    Running s runs ∧ Decided s ∧ runs ≤ 10 + gathered s + infos ∧ moves + 2 ≤ 4 * runs
  | .before .verdictGuard =>
    Running s runs ∧ Decided s ∧ Drafted s ∧ runs ≤ 10 + gathered s + infos ∧ moves + 1 ≤ 4 * runs
  | .before .humanReview =>
    Running s runs ∧ Decided s ∧ runs ≤ 10 + gathered s + infos ∧ moves ≤ 4 * runs
  | .before .thehiveWorker => Decided s ∧ runs ≤ 10 + gathered s + infos ∧ moves ≤ 4 * runs + 1
  | .before .closeInvestigation =>
    (Decided s ∨ Exempt s) ∧ runs ≤ 10 + gathered s + infos ∧ moves ≤ 4 * runs + 2
  | .ended => (Decided s ∨ Exempt s) ∧ runs ≤ 10 + gathered s + infos ∧ moves ≤ 4 * runs + 3
  | .aborted => runs ≤ 10 + gathered s + infos ∧ moves ≤ 4 * runs + 3
  -- The three workers, which a forced verdict does not reach.
  | .before _ => Running s runs ∧ runs ≤ 9 + gathered s + infos ∧ moves + 2 ≤ 4 * runs

theorem InvAt.runs_le {place : Place} (h : InvAt s runs infos moves place) :
    runs ≤ 10 + gathered s + infos := by
  cases place with
  | before n => cases n <;> simp only [InvAt] at h <;> omega
  | ended => exact h.2.1
  | aborted => exact h.1

theorem InvAt.moves_lt {n : Node} (h : InvAt s runs infos moves (.before n)) :
    moves ≤ 4 * runs + 2 := by
  cases n <;> simp only [InvAt] at h <;> omega

theorem InvAt.moves_le {place : Place} (h : InvAt s runs infos moves place) :
    moves ≤ 4 * runs + 3 := by
  cases place with
  | before n => exact h.moves_lt.trans (by omega)
  | ended => exact h.2.2
  | aborted => exact h.2

theorem invAt_worker {n : Node} (hn : IsWorker n) :
    InvAt s runs infos moves (.before n) ↔
      Running s runs ∧ runs ≤ 9 + gathered s + infos ∧ moves + 2 ≤ 4 * runs := by
  cases hn <;> exact Iff.rfl

/-! ## The steps -/

/-- The registry gives a class of its own only to a policy without required steps. -/
theorem resolve_spec (hp : s.triagePolicy = none) (h : resolveTriagePolicyNode S s = .ok s') :
    (∀ p, s'.triagePolicy = some p → p ∈ S.registry) ∧ s'.budgetTerminated = s.budgetTerminated ∧
      s'.supervisorError = s.supervisorError ∧ s'.iterationCount = s.iterationCount := by
  unfold resolveTriagePolicyNode at h
  obtain ⟨policy, hpolicy, h⟩ := (bind_eq_ok _ _ _).mp h
  obtain ⟨shadow, -, h⟩ := (bind_eq_ok _ _ _).mp h
  have hmem : ∀ p, policy = some p → p ∈ S.registry := by
    intro p hsome
    subst hsome
    unfold matchTriagePolicy at hpolicy
    obtain ⟨t, -, hfind⟩ := (bind_eq_ok _ _ _).mp hpolicy
    exact List.mem_of_find?_eq_some ((pure_eq_ok _ _).mp hfind)
  cases policy with
  | none =>
    obtain rfl := (pure_eq_ok _ _).mp h
    exact ⟨fun p hsome => by simp [hp] at hsome, rfl, rfl, rfl⟩
  | some p =>
    have hregistry := hmem p rfl
    unfold stashVetoes at h
    dsimp only at h
    split at h
    · obtain ⟨vetoes, -, h⟩ := (bind_eq_ok _ _ _).mp h
      obtain rfl := (pure_eq_ok _ _).mp h
      exact ⟨fun q hq => by cases hq; exact hregistry, rfl, rfl, rfl⟩
    · obtain rfl := (pure_eq_ok _ _).mp h
      exact ⟨fun q hq => by cases hq; exact hregistry, rfl, rfl, rfl⟩

theorem decided_of_operationalClose (hreg : ∀ p, s.triagePolicy = some p → p ∈ S.registry)
    (h : routeFromResolveTriagePolicy s = .operationalClose) :
    Decided s ∧ s.triagePolicy.any knownDisposition = true := by
  unfold routeFromResolveTriagePolicy at h
  unfold Decided
  cases hp : s.triagePolicy with
  | none => simp [hp] at h
  | some p =>
    simp only [hp] at h
    split at h
    · cases h
    · rename_i hknown
      have hdisposition : knownDisposition p = true := by simpa using hknown
      have hagent := eq_builtin_of_disposition S (hreg p hp) hdisposition
      rw [hagent]
      exact ⟨rfl, rfl⟩

theorem routeFromResolve_cases (s : GraphState) :
    routeFromResolveTriagePolicy s = .operationalClose ∨
      routeFromResolveTriagePolicy s = .supervisor := by
  unfold routeFromResolveTriagePolicy
  split
  · exact .inr rfl
  · split
    · exact .inr rfl
    · split <;> simp

theorem invAt_resolve (h : InvAt s runs infos moves (.before .resolveTriagePolicy))
    (hs : resolveTriagePolicyNode S s = .ok s') :
    InvAt s' runs infos (moves + 1) (.before (routeFromResolveTriagePolicy s')) := by
  obtain ⟨hp, hrun, hruns, hmoves⟩ := h
  obtain ⟨hreg, hbudget, herror, hiterations⟩ := resolve_spec S hp hs
  have hrun' : Running s' runs :=
    ⟨hbudget.trans hrun.budget, herror.trans hrun.error, hiterations.trans hrun.iterations⟩
  rcases routeFromResolve_cases s' with hroute | hroute
  · rw [hroute]
    obtain ⟨hdecided, hdisposition⟩ := decided_of_operationalClose S hreg hroute
    exact ⟨hdecided, hdisposition, hruns, by omega⟩
  · rw [hroute]
    exact ⟨hrun', by omega, by omega⟩

/-- One iteration of the supervisor. -/
theorem invAt_supervisor (a : Answer) (h : InvAt s runs infos moves (.before .supervisor)) :
    InvAt (supervisorNode S a s) (runs + 1) infos (moves + 1)
      (.before (routeFromSupervisor (supervisorNode S a s))) := by
  obtain ⟨hrun, hruns, hmoves⟩ := h
  obtain ⟨-, hsteps, -⟩ := supervisorNode_spec S a hrun
  have hnext := supervisorNode_running S a hrun
  generalize supervisorNode S a s = s' at *
  have hgathered : gathered s' = gathered s := by unfold gathered; rw [hsteps]
  rcases routeFromSupervisor_cases s' with hworker | hroute | hroute | hroute
  · have hclose : routeFromSupervisor s' ≠ .closeInvestigation := by
      intro hc
      rw [hc] at hworker
      cases hworker
    obtain ⟨hrun', hforced⟩ := hnext hclose
    have hlimit : ¬ maxIterations ≤ runs + 1 := fun hle =>
      not_isWorker_of_forced (hforced hle) hworker
    rw [invAt_worker hworker]
    unfold maxIterations at hlimit
    exact ⟨hrun', by omega, by omega⟩
  · obtain ⟨hrun', -⟩ := hnext (by rw [hroute]; decide)
    have hzero : gathered s' = 0 := if_neg (routeFromSupervisor_gather hroute)
    rw [hroute]
    exact ⟨hrun', hzero, by omega, by omega⟩
  · obtain ⟨hrun', -⟩ := hnext (by rw [hroute]; decide)
    obtain ⟨hdecided, -⟩ := routeFromSupervisor_verdict hroute hrun'.budget
    rw [hroute]
    exact ⟨hrun', hdecided, by omega, by omega⟩
  · have hends := routeFromSupervisor_close hroute
    rw [hroute]
    exact ⟨hends, by omega, by omega⟩

theorem invAt_worker_step {n : Node} (hn : IsWorker n) (a : Answer)
    (h : InvAt s runs infos moves (.before n)) :
    InvAt (workerNode a s) runs infos (moves + 1) (.before .supervisor) := by
  obtain ⟨hrun, hruns, hmoves⟩ := (invAt_worker hn).mp h
  have hsame := sameRun_workerNode a s
  have hgathered := hsame.gathered
  exact ⟨hsame.running hrun, by omega, by omega⟩

/-- The gather step runs once. -/
theorem invAt_gather (h : InvAt s runs infos moves (.before .gatherAuthorizationContext))
    (hs : gatherAuthorizationContextNode S s = .ok s') :
    InvAt s' runs infos (moves + 1) (.before .supervisor) := by
  obtain ⟨hrun, -, hruns, hmoves⟩ := h
  obtain ⟨-, hbudget, hiterations, herror, hmem⟩ := gatherNode_spec S hs
  have hone : gathered s' = 1 := if_pos hmem
  exact ⟨⟨hbudget.trans hrun.budget, herror.trans hrun.error, hiterations.trans hrun.iterations⟩,
    by omega, by omega⟩

theorem invAt_verdict (a : Answer) (h : InvAt s runs infos moves (.before .verdict)) :
    InvAt (verdictNode a s) runs infos (moves + 1) (.before .verdictGuard) := by
  obtain ⟨hrun, hdecided, hruns, hmoves⟩ := h
  have hsame := sameRun_verdictNode a s
  have hgathered := hsame.gathered
  exact ⟨hsame.running hrun, hsame.decided hdecided, drafted_verdictNode a s, by omega, by omega⟩

/-- The guarded verdict goes to review or to the close. -/
theorem invAt_guard {now : String} {route : Route}
    (h : InvAt s runs infos moves (.before .verdictGuard)) (hs : guardNode S now s = .ok s')
    (hroute : routeFromVerdict s'.toDict = .ok route) :
    InvAt s' runs infos (moves + 1) (.before route.node) := by
  obtain ⟨hrun, hdecided, hdrafted, hruns, hmoves⟩ := h
  obtain ⟨hsame, hsettled⟩ := sameRun_guardNode S hs
  have hgathered := hsame.gathered
  cases route with
  | humanReview => exact ⟨hsame.running hrun, hsame.decided hdecided, by omega, by omega⟩
  | closeInvestigation => exact ⟨.inl (hsame.decided hdecided), by omega, by omega⟩
  | supervisor => exact absurd rfl (route_ne_supervisor (hsettled hdrafted) hroute)

/-- A review that asks for more information is counted. -/
theorem invAt_review (d : HumanDecision) (h : InvAt s runs infos moves (.before .humanReview)) :
    InvAt (humanReviewNode d s) runs (if d = .moreInfo then infos + 1 else infos) (moves + 1)
      (.before (routeFromHumanReview (humanReviewNode d s))) := by
  obtain ⟨hrun, hdecided, hruns, hmoves⟩ := h
  have hsame := sameRun_humanReviewNode d s
  have hgathered := hsame.gathered
  cases d with
  | approve => exact ⟨hsame.decided hdecided, by simpa using (by omega), by omega⟩
  | reject => exact ⟨.inl (hsame.decided hdecided), by simpa using (by omega), by omega⟩
  | moreInfo => exact ⟨hsame.running hrun, by simpa using (by omega), by omega⟩

theorem invAt_thehive (a : Answer) (h : InvAt s runs infos moves (.before .thehiveWorker)) :
    InvAt (workerNode a s) runs infos (moves + 1) (.before .closeInvestigation) := by
  obtain ⟨hdecided, hruns, hmoves⟩ := h
  have hsame := sameRun_workerNode a s
  have hgathered := hsame.gathered
  exact ⟨.inl (hsame.decided hdecided), by omega, by omega⟩

theorem invAt_close (h : InvAt s runs infos moves (.before .closeInvestigation))
    (hs : closeInvestigationNode s = .ok s') : InvAt s' runs infos (moves + 1) .ended := by
  obtain ⟨hends, hruns, hmoves⟩ := h
  have hsame := sameRun_closeInvestigationNode hs
  have hgathered := hsame.gathered
  exact ⟨hends.imp hsame.decided hsame.exempt, by omega, by omega⟩

theorem invAt_aborted {n : Node} (h : InvAt s runs infos moves (.before n)) :
    InvAt s runs infos (moves + 1) .aborted := by
  have hruns := h.runs_le
  have hmoves := h.moves_lt
  exact ⟨hruns, by omega⟩

/-- What one node leaves, with its counts. -/
theorem invAt_runNode {a : Answer} {n : Node} {place : Place}
    (h : InvAt s runs infos moves (.before n)) (hw : waits a n = false)
    (hs : runNode S a s n = .ok (s', place)) :
    InvAt s' (if n = .supervisor then runs + 1 else runs)
      (if n = .humanReview ∧ a.review = some .moreInfo then infos + 1 else infos) (moves + 1)
      place := by
  cases n with
  | resolveTriagePolicy =>
    obtain ⟨s₁, hnode, hs⟩ := (bind_eq_ok _ _ _).mp hs
    cases (pure_eq_ok _ _).mp hs
    exact invAt_resolve S h hnode
  | operationalClose =>
    cases (pure_eq_ok _ _).mp hs
    obtain ⟨hdecided, -, hruns, hmoves⟩ := h
    exact ⟨.inl hdecided, by simpa using (by omega), by simpa using (by omega)⟩
  | supervisor =>
    cases (pure_eq_ok _ _).mp hs
    exact invAt_supervisor S a h
  | wazuhWorker =>
    cases (pure_eq_ok _ _).mp hs
    exact invAt_worker_step .wazuh a h
  | cortexWorker =>
    cases (pure_eq_ok _ _).mp hs
    exact invAt_worker_step .cortex a h
  | mispWorker =>
    cases (pure_eq_ok _ _).mp hs
    exact invAt_worker_step .misp a h
  | gatherAuthorizationContext =>
    obtain ⟨s₁, hnode, hs⟩ := (bind_eq_ok _ _ _).mp hs
    cases (pure_eq_ok _ _).mp hs
    exact invAt_gather S h hnode
  | verdict =>
    cases (pure_eq_ok _ _).mp hs
    exact invAt_verdict a h
  | verdictGuard =>
    obtain ⟨s₁, hnode, hs⟩ := (bind_eq_ok _ _ _).mp hs
    obtain ⟨route, hroute, hs⟩ := (bind_eq_ok _ _ _).mp hs
    cases (pure_eq_ok _ _).mp hs
    exact invAt_guard S h hnode hroute
  | humanReview =>
    cases hreview : a.review with
    | none => simp [waits, hreview] at hw
    | some d =>
      simp only [runNode, hreview] at hs
      cases (pure_eq_ok _ _).mp hs
      have hreviewed := invAt_review d h
      simpa using hreviewed
  | thehiveWorker =>
    cases (pure_eq_ok _ _).mp hs
    exact invAt_thehive a h
  | closeInvestigation =>
    obtain ⟨s₁, hnode, hs⟩ := (bind_eq_ok _ _ _).mp hs
    cases (pure_eq_ok _ _).mp hs
    exact invAt_close h hnode

/-- A node that raises leaves the state; the supervisor's does not raise. -/
theorem invAt_raised {a : Answer} {n : Node} {e : Exc} (h : InvAt s runs infos moves (.before n))
    (hw : waits a n = false) (hs : runNode S a s n = .error e) :
    InvAt s (if n = .supervisor then runs + 1 else runs)
      (if n = .humanReview ∧ a.review = some .moreInfo then infos + 1 else infos) (moves + 1)
      .aborted := by
  have haborted := invAt_aborted h
  cases n with
  | supervisor => cases hs
  | humanReview =>
    cases hreview : a.review with
    | none => simp [waits, hreview] at hw
    | some d =>
      simp only [runNode, hreview] at hs
      cases hs
  | _ => simpa using haborted

end

def Inv (c : Config) : Prop := InvAt c.state c.supervisorRuns c.moreInfos c.moves c.place

/-- Each step keeps the invariant. -/
theorem Inv.step {c : Config} (h : Inv c) (a : Answer) : Inv (step S c a) := by
  unfold Graph.step
  unfold Inv at h
  cases hplace : c.place with
  | ended => simpa [Inv, hplace] using h
  | aborted => simpa [Inv, hplace] using h
  | before n =>
    rw [hplace] at h
    dsimp only
    split
    · exact invAt_aborted h
    · split
      · unfold Inv
        rw [hplace]
        exact h
      · rename_i hw
        have hwaits : waits a n = false := by simpa using hw
        unfold Inv
        cases hs : runNode S a c.state n with
        | ok next => exact invAt_runNode S h hwaits hs
        | error e => exact invAt_raised S h hwaits hs

theorem inv_run {c : Config} (h : Inv c) (answers : List Answer) : Inv (run S c answers) := by
  induction answers generalizing c with
  | nil => exact h
  | cons a answers ih => exact ih (h.step S a)

theorem inv_start (investigation correlation : Value) (budget : BudgetState) :
    Inv (start investigation correlation budget) :=
  ⟨rfl, ⟨rfl, rfl, rfl⟩, rfl, rfl⟩

/-! ## Every run -/

/-- All the policy's required steps that the graph has a node for have run. -/
def StepsHaveRun (s : GraphState) : Prop :=
  ∀ p, s.triagePolicy = some p → ∀ step ∈ p.requiredSteps, step ∈ knownStepNodes →
    step ∈ s.stepsRun

theorem Decided.stepsHaveRun {s : GraphState} (h : Decided s) : StepsHaveRun s := by
  intro p hp step hstep hknown
  by_contra hrun
  unfold Decided at h
  rw [hp] at h
  have hmissing := mem_missingRequiredSteps.mpr ⟨hstep, hrun, hknown⟩
  rw [h] at hmissing
  cases hmissing

/-- What routing keeps to. The close without the required steps is left to a run that its budget
ends or whose supervisor call fails; a run goes on as long as reviews ask for more. -/
structure RoutedSafely (c : Config) : Prop where
  verdict : c.place = .before .verdict → StepsHaveRun c.state
  close : c.place = .before .closeInvestigation → StepsHaveRun c.state ∨ Exempt c.state
  legal : ∀ a legal, legalActionsFor (supervisorNode S a c.state).triagePolicy
      (supervisorNode S a c.state).stepsRun = some legal →
    gatedAction (supervisorNode S a c.state) ∈ legal ∨
      (supervisorNode S a c.state).budgetTerminated = true ∨
      forcedVerdict (supervisorNode S a c.state)
  dualUse : c.state.triagePolicy = some privilegedExecTriagePolicy →
    c.place ≠ .before .operationalClose ∧ (c.place = .before .supervisor → ∀ a,
      routeFromSupervisor (supervisorNode S a c.state) = .closeInvestigation →
      Exempt (supervisorNode S a c.state))
  supervisorRuns : c.supervisorRuns ≤ 11 + c.moreInfos
  moves : c.moves ≤ 47 + 4 * c.moreInfos
  /-- A run that has not ended takes another node, unless it waits for its review. -/
  progress : ∀ n a, c.place = .before n → waits a n = false → (step S c a).moves = c.moves + 1

/-- The dual-use policy lists every action but the close, in both phases. -/
theorem legalActionsFor_dualUse (stepsRun : List String) :
    legalActionsFor (some privilegedExecTriagePolicy) stepsRun =
      some [.contextualize, .enrich, .investigate, .verdict] := by
  unfold legalActionsFor
  cases triagePolicyPhase (some privilegedExecTriagePolicy) stepsRun <;> decide

theorem gatedAction_of_close {s : GraphState} (h : routeFromSupervisor s = .closeInvestigation)
    (herr : s.supervisorError = none) : gatedAction s = .close := by
  unfold routeFromSupervisor at h
  cases hgate : gatedAction s with
  | close => rfl
  | verdict =>
    simp only [herr, hgate] at h
    split at h
    · rename_i hsome
      cases hsome
    · split at h <;> cases h
  | _ => simp [herr, hgate] at h

/-- Every run of a claimed case keeps to its policy, and is bounded by its reviews. -/
theorem routed_safely (investigation correlation : Value) (budget : BudgetState)
    (answers : List Answer) :
    RoutedSafely S (run S (start investigation correlation budget) answers) := by
  have hinv := inv_run S (inv_start investigation correlation budget) answers
  generalize run S (start investigation correlation budget) answers = c at *
  have hgathered := gathered_le c.state
  have hruns := hinv.runs_le
  have hmoves := hinv.moves_le
  unfold Inv at hinv
  constructor
  · intro hplace
    rw [hplace] at hinv
    exact hinv.2.1.stepsHaveRun
  · intro hplace
    rw [hplace] at hinv
    exact hinv.1.imp_left Decided.stepsHaveRun
  · intro a legal hlegal
    exact gatedAction_legal hlegal
  · intro hpolicy
    constructor
    · intro hplace
      rw [hplace] at hinv
      obtain ⟨-, hdisposition, -⟩ := hinv
      rw [hpolicy] at hdisposition
      cases hdisposition
    · intro hplace a hclose
      rw [hplace] at hinv
      obtain ⟨hpolicy', -⟩ := supervisorNode_spec S a hinv.1
      generalize supervisorNode S a c.state = s at *
      by_contra hexempt
      have herr : s.supervisorError = none := by
        by_contra hne
        exact hexempt (.inr (Option.isSome_iff_ne_none.mpr hne))
      have hgate := gatedAction_of_close hclose herr
      have hlegal := legalActionsFor_dualUse s.stepsRun
      rw [← hpolicy, ← hpolicy'] at hlegal
      rcases gatedAction_legal hlegal with hmem | hbudget | hforced
      · rw [hgate] at hmem
        simp at hmem
      · exact hexempt (.inl hbudget)
      · rw [gatedAction, if_pos (.inr hforced), hforced.1] at hgate
        cases hgate
  · omega
  · omega
  · intro n a hplace hwaits
    unfold step
    rw [hplace]
    dsimp only
    split
    · rfl
    · rw [hwaits]
      cases runNode S a c.state n <;> rfl

/-! ## Where the claimed bounds end -/

/-- No files, no authorization contexts. -/
def bareSetup : Setup where
  yaml := ⟨fun _ => none, fun _ => ""⟩
  validate := fun _ => none
  dumpContext := fun _ _ => .none

/-- Dollars are not accounted for. -/
def untracked : BudgetState where
  tokensUsed := some 0
  tokensBudget := some 15000
  priceSnapshot := some [("cost_tracking", .bool false)]

/-- An alert of the dual-use class. -/
def sudoAlert : Value :=
  .dict [("alerts", .list [.dict [("rule_groups", .list [.str "sudo"])]])]

/-- The first supervisor call fails. -/
def failedCall : Config :=
  run bareSetup (start sudoAlert .none untracked)
    [{}, { decision := .error "provider_unavailable" }]

/-- The case before its supervisor, with `i` iterations and `r` reviews behind it. -/
def asked (i : ℕ) (d : Option SupervisorDecision) (v : Dict) (h : Option HumanDecision)
    (runs infos moves : ℕ) : Config where
  place := .before .supervisor
  state :=
    { investigation := .dict [], budget := ensure {} untracked, iterationCount := i
      supervisorDecision := d, verdict := v, humanDecision := h }
  supervisorRuns := runs
  moreInfos := infos
  moves := moves

/-- An escalation is drafted, and the reviewer asks for more. -/
def askAgain : List Answer :=
  [{ decision := .ok ⟨.verdict, .fin (1 / 2)⟩, budget := ensure {} untracked },
    { verdict := .ok (.escalate, []), budget := ensure {} untracked }, {},
    { review := some .moreInfo }]

theorem step_supervisor {c : Config} {a : Answer} (hplace : c.place = .before .supervisor)
    (hraises : a.raises = false) :
    step S c a = { c with
      place := .before (routeFromSupervisor (supervisorNode S a c.state))
      state := supervisorNode S a c.state
      supervisorRuns := c.supervisorRuns + 1
      moves := c.moves + 1 } := by
  unfold step
  rw [hplace, hraises]
  rfl

theorem run_askAgain (i : ℕ) (d : Option SupervisorDecision) (v : Dict)
    (h : Option HumanDecision) (runs infos moves : ℕ) :
    run bareSetup (asked i d v h runs infos moves) askAgain =
      asked (i + 1) (some ⟨.verdict, .fin (1 / 2)⟩) [("decision", .enum "escalate")]
        (some .moreInfo) (runs + 1) (infos + 1) (moves + 4) := by
  have hbudget : overBudget {} (ensure {} (ensure {} untracked)) = false := by decide +kernel
  have hsupervisor : supervisorNode bareSetup
      { decision := .ok ⟨.verdict, .fin (1 / 2)⟩, budget := ensure {} untracked }
      (asked i d v h runs infos moves).state =
      (asked (i + 1) (some ⟨.verdict, .fin (1 / 2)⟩) v h runs infos moves).state := by
    unfold supervisorNode asked
    dsimp only
    have henv : bareSetup.budgetEnv = {} := rfl
    rw [henv, if_neg (by simp [hbudget])]
    split <;> rfl
  have hgate : gatedAction
      (asked (i + 1) (some ⟨.verdict, .fin (1 / 2)⟩) v h runs infos moves).state = .verdict := by
    unfold gatedAction
    split <;> rfl
  have hroute : routeFromSupervisor
      (asked (i + 1) (some ⟨.verdict, .fin (1 / 2)⟩) v h runs infos moves).state = .verdict := by
    unfold routeFromSupervisor
    rw [hgate]
    rfl
  have hfirst : step bareSetup (asked i d v h runs infos moves)
      { decision := .ok ⟨.verdict, .fin (1 / 2)⟩, budget := ensure {} untracked } =
      { asked (i + 1) (some ⟨.verdict, .fin (1 / 2)⟩) v h (runs + 1) infos (moves + 1) with
        place := .before .verdict } := by
    rw [step_supervisor bareSetup rfl rfl, hsupervisor, hroute]
    rfl
  unfold run askAgain
  rw [List.foldl_cons, hfirst]
  rfl

/-- Reviews that ask for more keep the supervisor running. -/
theorem exists_run_askAgain (n i : ℕ) (d : Option SupervisorDecision) (v : Dict)
    (h : Option HumanDecision) (runs infos moves : ℕ) :
    ∃ answers, (run bareSetup (asked i d v h runs infos moves) answers).supervisorRuns =
      runs + n := by
  induction n generalizing i d v h runs infos moves with
  | zero => exact ⟨[], rfl⟩
  | succ n ih =>
    obtain ⟨answers, hanswers⟩ := ih (i + 1) (some ⟨.verdict, .fin (1 / 2)⟩)
      [("decision", .enum "escalate")] (some .moreInfo) (runs + 1) (infos + 1) (moves + 4)
    refine ⟨askAgain ++ answers, ?_⟩
    have happend : run bareSetup (asked i d v h runs infos moves) (askAgain ++ answers) =
        run bareSetup (run bareSetup (asked i d v h runs infos moves) askAgain) answers :=
      List.foldl_append
    rw [happend, run_askAgain, hanswers]
    omega

/-- A failed supervisor call closes a dual-use case without its required step, and reviews that ask
for more leave no bound on the supervisor's iterations. -/
theorem not_routed_unconditionally :
    (¬ ∀ (S : Setup) (investigation correlation : Value) (budget : BudgetState)
      (answers : List Answer),
      (run S (start investigation correlation budget) answers).place =
        .before .closeInvestigation →
      StepsHaveRun (run S (start investigation correlation budget) answers).state ∨
        (run S (start investigation correlation budget) answers).state.budgetTerminated = true) ∧
    ¬ ∃ bound, ∀ (S : Setup) (investigation correlation : Value) (budget : BudgetState)
      (answers : List Answer),
      (run S (start investigation correlation budget) answers).supervisorRuns ≤ bound := by
  constructor
  · intro hall
    have hplace : failedCall.place = .before .closeInvestigation := by decide +kernel
    have hbudget : failedCall.state.budgetTerminated = false := by decide +kernel
    have hsteps : failedCall.state.stepsRun = [] := by decide +kernel
    rcases hall bareSetup sudoAlert .none untracked _ hplace with hrun | hbudget'
    · have hstep := hrun privilegedExecTriagePolicy rfl gatherAuthorizationContext
        List.mem_cons_self (by decide)
      change _ ∈ failedCall.state.stepsRun at hstep
      rw [hsteps] at hstep
      cases hstep
    · change failedCall.state.budgetTerminated = true at hbudget'
      rw [hbudget] at hbudget'
      cases hbudget'
  · intro ⟨bound, hbound⟩
    have hfirst : run bareSetup (start (.dict []) .none (ensure {} untracked)) [{}] =
        asked 0 none [] none 0 0 1 := rfl
    obtain ⟨answers, hruns⟩ := exists_run_askAgain (bound + 1) 0 none [] none 0 0 1
    have hle := hbound bareSetup (.dict []) .none (ensure {} untracked) ({} :: answers)
    have happend : run bareSetup (start (.dict []) .none (ensure {} untracked)) ({} :: answers) =
        run bareSetup (asked 0 none [] none 0 0 1) answers := by rw [← hfirst]; rfl
    rw [happend, hruns] at hle
    omega

end SocTalk.Graph
